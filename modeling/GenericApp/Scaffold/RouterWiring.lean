import Mathlib.Data.List.Pairwise
import GenericApp.Scaffold.RouterEntries

/-!
# Do router entries compose?

The registry of routers after a sequence of calls, from one whose block is empty.

What a call writes are lines without repetition (`Rewired`), and that is all that the runs of two different
modules need: each of their entries ends in the same line, so that the block of both cannot hold both endings.
A key that ends in a newline, which the check of keys lets through, does not need a second module for that: two
of the lines that its newline makes are alike already. What is left are the sequences of calls for one module.
There the second call finds the entry that the first one wrote, cuts it out and writes it again.

The file is read with universal newlines and written without, so that carriage returns around the block are lost
at the first call.
-/

namespace GenericApp

open Py

variable {setOrder : List Text → List Text} {names : ModuleNames} {file text : Text}
variable {found block : Enclosed} {calls : List ModuleNames}

/-! ### What is claimed of a sequence of calls -/

/-- A registry whose block of router contributions is empty. -/
def EmptyBlock (file : Text) (found : Enclosed) : Prop :=
  between routerOpening routerClosing file = some found ∧ isBlank found.body = true

instance : Decidable (EmptyBlock file found) := inferInstanceAs (Decidable (_ ∧ _))

/-- The lines of one complete entry per key, the entries sorted by key. -/
def entryLines (calls : List ModuleNames) : List Text :=
  ((calls.map ModuleNames.key).dedup.mergeSort fun a b ↦ a ≤ b).flatMap
    fun key ↦ splitLines (contribution key)

/-- After the calls the block consists of one complete entry per key, sorted by key. What stands around the
block is as it was. The call for the key that was wired last changes nothing, and in any other order the calls
have the same result. -/
structure Composes (setOrder : List Text → List Text) (file : Text) (found : Enclosed)
    (calls : List ModuleNames) : Prop where
  complete : ∃ file' block, wireAll setOrder calls file = .ok file' ∧
    between routerOpening routerClosing file' = some block ∧ block.before = found.before ∧
    block.after = found.after ∧ existingLines block.body = entryLines calls
  again : ∀ file' names, wireAll setOrder calls file = .ok file' → calls.getLast? = some names →
    wireRouterContribution setOrder names file' = .ok (file', false)
  anyOrder : ∀ calls', calls'.Perm calls → wireAll setOrder calls' file = wireAll setOrder calls file

/-- The calls are for one module, whose key has no newline in it, and around the block there is no carriage
return. -/
def OneModule (found : Enclosed) (calls : List ModuleNames) : Prop :=
  (∃ names, names.IsPlain ∧ ∀ n ∈ calls, n = names) ∧ '\r' ∉ found.before ∧ '\r' ∉ found.after

/-! ### What one call writes -/

/-- The parts as they are read. -/
def readParts (found : Enclosed) : Enclosed :=
  ⟨universalNewlines found.before, universalNewlines found.body, universalNewlines found.after⟩

theorem between_read (h : between routerOpening routerClosing file = some found) :
    between routerOpening routerClosing (universalNewlines file) = some (readParts found) :=
  have hmarks : ((routerOpening ++ routerClosing).all fun c ↦ c ≠ '\r' ∧ c ≠ '\n') = true := by decide
  between_universalNewlines (by decide) (by decide)
    (fun c hc ↦ of_decide_eq_true (List.all_eq_true.1 hmarks c hc)) h

/-- The lines that a call hands on. -/
def wiredLines (setOrder : List Text → List Text) (names : ModuleNames) (found : Enclosed) : List Text :=
  rebuiltLines setOrder (withEntry names.key found.body)

/-- The block that a call makes of the one it finds. -/
def wired (setOrder : List Text → List Text) (names : ModuleNames) (found : Enclosed) : Enclosed :=
  upserted false (wiredLines setOrder names found) found

/-- The text of a block. -/
def registryText (found : Enclosed) : Text := found.text routerOpening routerClosing

/-- A call either leaves the file alone or writes the new block into what was read. -/
theorem wireRouterContribution_eq
    (h : between routerOpening routerClosing (universalNewlines file) = some found) :
    wireRouterContribution setOrder names file =
      if registryText (wired setOrder names found) = universalNewlines file then .ok (file, false)
      else .ok (registryText (wired setOrder names found), true) := by
  rw [wireRouterContribution]
  simp only [h, upsertMarkedBlock_eq h]
  have hcases (newText : Text) :
      (.ok (if decide (newText ≠ universalNewlines file) then newText else file,
        decide (newText ≠ universalNewlines file)) : Except WiringError (Text × Bool)) =
      if newText = universalNewlines file then .ok (file, false) else .ok (newText, true) := by
    by_cases hsame : newText = universalNewlines file
    · simp [hsame]
    · simp [hsame]
  exact hcases _

theorem isLine_wiredLines (hset : ∀ chunks, (setOrder chunks).Perm chunks.dedup)
    (hmark : '#' ∉ found.body) : ∀ l ∈ wiredLines setOrder names found, IsLine l ∧ '#' ∉ l :=
  mark_notMem_rebuiltLines hset (mark_notMem_withEntry hmark (mark_notMem_key names))

/-- The lines of the new block are those that are handed on, each of them once. -/
theorem existingLines_wired (hset : ∀ chunks, (setOrder chunks).Perm chunks.dedup)
    (hmark : '#' ∉ found.body) : existingLines (wired setOrder names found).body =
      bodyLines false (wiredLines setOrder names found) := by
  have hline : ∀ l ∈ wiredLines setOrder names found, IsLine l := fun l hl ↦
    (isLine_wiredLines hset hmark l hl).1
  refine existingLines_blockBody (fun l hl ↦ ?_) found.before
  obtain ⟨hmem, hblank⟩ := mem_bodyLines hline hl
  exact ⟨hline l hmem, hblank⟩

theorem mark_notMem_wired (hset : ∀ chunks, (setOrder chunks).Perm chunks.dedup)
    (hmark : '#' ∉ found.body) : '#' ∉ (wired setOrder names found).body := by
  intro h
  obtain hnewline | hindent | ⟨l, hl, h⟩ := mem_blockBody h
  · exact absurd hnewline (by decide)
  · exact absurd (isIndent_of_mem_indentOf hindent) (by decide)
  · have hmem := (mem_bodyLines (fun l hl ↦ (isLine_wiredLines hset hmark l hl).1) hl).1
    exact (isLine_wiredLines hset hmark l hmem).2 h

theorem return_notMem_wired (hset : ∀ chunks, (setOrder chunks).Perm chunks.dedup)
    (hmark : '#' ∉ found.body) : '\r' ∉ (wired setOrder names found).body := by
  intro h
  obtain hnewline | hindent | ⟨l, hl, h⟩ := mem_blockBody h
  · exact absurd hnewline (by decide)
  · exact absurd (isIndent_of_mem_indentOf hindent) (by decide)
  · have hline : ∀ l ∈ wiredLines setOrder names found, IsLine l := fun l hl ↦
      (isLine_wiredLines hset hmark l hl).1
    exact return_notMem_of_isLine (hline l (mem_bodyLines hline hl).1) h

/-! ### What a run keeps -/

/-- A registry that has been written: the parts around the block are those that were read, no line of the block
is repeated, and there is no mark in it and no carriage return anywhere. -/
structure Rewired (found : Enclosed) (file : Text) (block : Enclosed) : Prop where
  marks : between routerOpening routerClosing file = some block
  before : block.before = found.before
  after : block.after = found.after
  unmarked : '#' ∉ block.body
  lines : (existingLines block.body).Nodup
  read : '\r' ∉ file

/-- What is written is found again. -/
theorem rewired_wired (hset : ∀ chunks, (setOrder chunks).Perm chunks.dedup)
    (h : between routerOpening routerClosing (universalNewlines file) = some found)
    (hmark : '#' ∉ found.body) :
    Rewired found (registryText (wired setOrder names found)) (wired setOrder names found) where
  marks := between_withBody (by decide) h (mark_notMem_wired hset hmark)
  before := rfl
  after := rfl
  unmarked := mark_notMem_wired hset hmark
  lines := by
    rw [existingLines_wired hset hmark]
    exact nodup_bodyLines false _
  read := by
    have hread := return_notMem_universalNewlines file
    rw [between_sound h, Enclosed.text] at hread
    simp only [List.mem_append, not_or] at hread
    obtain ⟨hbefore, hopening, -, hclosing, hafter⟩ := hread
    simp only [registryText, Enclosed.text, List.mem_append, not_or]
    exact ⟨hbefore, hopening, return_notMem_wired hset hmark, hclosing, hafter⟩

/-- The registry after a run is the one before it, or has been written. -/
def Wired (file : Text) (found : Enclosed) (file' : Text) : Prop :=
  file' = file ∨ ∃ block, Rewired (readParts found) file' block

variable {file' : Text}

/-- Either way the next call finds a block between what was read. -/
theorem Wired.between_read (h : Wired file found file') (hfile : EmptyBlock file found) :
    ∃ block, between routerOpening routerClosing (universalNewlines file') = some block ∧
      block.before = (readParts found).before ∧ block.after = (readParts found).after ∧
      '#' ∉ block.body := by
  obtain rfl | ⟨block, hblock⟩ := h
  · refine ⟨readParts found, GenericApp.between_read hfile.1, rfl, rfl, fun hmark ↦ ?_⟩
    have hspace := List.all_eq_true.1 (isBlank_universalNewlines hfile.2) _ hmark
    exact absurd hspace (by decide)
  · refine ⟨block, ?_, hblock.before, hblock.after, hblock.unmarked⟩
    rw [universalNewlines_of_notMem hblock.read]
    exact hblock.marks

theorem Wired.call (hset : ∀ chunks, (setOrder chunks).Perm chunks.dedup)
    (hfile : EmptyBlock file found) (h : Wired file found text) {changed : Bool}
    (hcall : wireRouterContribution setOrder names text = .ok (file', changed)) :
    Wired file found file' := by
  obtain ⟨block, hblock, hbefore, hafter, hmark⟩ := h.between_read hfile
  rw [wireRouterContribution_eq hblock] at hcall
  split at hcall
  · obtain ⟨rfl, -⟩ := Prod.mk.inj (Except.ok.inj hcall)
    exact h
  · obtain ⟨rfl, -⟩ := Prod.mk.inj (Except.ok.inj hcall)
    have hrewired : Rewired _ (registryText (wired setOrder names _)) _ :=
      rewired_wired hset hblock hmark
    exact .inr ⟨_, { hrewired with before := hbefore, after := hafter }⟩

theorem Wired.run (hset : ∀ chunks, (setOrder chunks).Perm chunks.dedup)
    (hfile : EmptyBlock file found) (h : Wired file found text)
    (hrun : wireAll setOrder calls text = .ok file') : Wired file found file' := by
  induction calls generalizing text with
  | nil => exact Except.ok.inj hrun ▸ h
  | cons names calls ih =>
    rw [wireAll] at hrun
    split at hrun
    · exact nomatch hrun
    · next text' changed hcall => exact ih (h.call hset hfile hcall) hrun

/-! ### What two modules have in common -/

theorem mem_entryKeys {key : Text} :
    key ∈ (calls.map ModuleNames.key).dedup.mergeSort (fun a b ↦ a ≤ b) ↔
      ∃ names ∈ calls, names.key = key := by
  rw [(List.mergeSort_perm _ _).mem_iff, List.mem_dedup, List.mem_map]

/-- Where no line is repeated there is one module, and its key has no newline in it. -/
theorem oneModule_of_nodup (h : (entryLines calls).Nodup) (hne : calls ≠ []) :
    ∃ names : ModuleNames, names.IsPlain ∧ ∀ n ∈ calls, n = names := by
  obtain ⟨hnodup, hpairwise⟩ := List.nodup_flatMap.1 h
  obtain ⟨names, hnames⟩ := List.exists_mem_of_ne_nil calls hne
  refine ⟨names, isPlain_of_nodup (hnodup _ (mem_entryKeys.2 ⟨names, hnames, rfl⟩)), fun n hn ↦ ?_⟩
  by_contra hdiff
  have hkey : n.key ≠ names.key := fun heq ↦ hdiff (by cases n; cases names; simpa using heq)
  -- the entries of two keys have no line in common, and yet they end in the same one
  have : Std.Symm (Function.onFun List.Disjoint fun key ↦ splitLines (contribution key)) :=
    ⟨fun _ _ hdisjoint ↦ hdisjoint.symm⟩
  have hdisjoint := hpairwise.forall (mem_entryKeys.2 ⟨n, hn, rfl⟩)
    (mem_entryKeys.2 ⟨names, hnames, rfl⟩) hkey
  exact hdisjoint (closing_mem_splitLines n) (closing_mem_splitLines names)

theorem entryLines_ne_nil (hne : calls ≠ []) : entryLines calls ≠ [] := by
  obtain ⟨names, hnames⟩ := List.exists_mem_of_ne_nil calls hne
  exact List.ne_nil_of_mem
    (List.mem_flatMap.2 ⟨names.key, mem_entryKeys.2 ⟨names, hnames, rfl⟩, closing_mem_splitLines names⟩)

/-- Calls that compose are for one module. -/
theorem oneModule_of_composes (hset : ∀ chunks, (setOrder chunks).Perm chunks.dedup)
    (hfile : EmptyBlock file found) (h : Composes setOrder file found calls) (hne : calls ≠ []) :
    OneModule found calls := by
  obtain ⟨file', block, hrun, hblock, hbefore, hafter, hlines⟩ := h.complete
  have hwired : Wired file found file' := Wired.run hset hfile (.inl rfl) hrun
  obtain rfl | ⟨block', hrewired⟩ := hwired
  · -- an empty block has no lines
    obtain rfl := Option.some.inj (hblock.symm.trans hfile.1)
    exact absurd (hlines.symm.trans (existingLines_of_isBlank hfile.2)) (entryLines_ne_nil hne)
  · obtain rfl := Option.some.inj (hblock.symm.trans hrewired.marks)
    refine ⟨oneModule_of_nodup (hlines ▸ hrewired.lines) hne, ?_, ?_⟩
    · rw [← hbefore, hrewired.before]
      exact return_notMem_universalNewlines _
    · rw [← hafter, hrewired.after]
      exact return_notMem_universalNewlines _

/-! ### One module -/

/-- The call for a module whose entry is all that the block holds writes that entry. -/
theorem wired_of_isBlank (hset : ∀ chunks, (setOrder chunks).Perm chunks.dedup) (hplain : names.IsPlain)
    (h : isBlank (removeEntry names.key found.body) = true) : wired setOrder names found =
      { found with body := blockBody (indentOf found.before) (contributionLines names.key) } := by
  obtain ⟨hne, hchars⟩ := hplain.chars
  obtain ⟨hline, hquote, -⟩ := isLine_of_isKeyChar hchars
  have hlines : wiredLines setOrder names found = contributionLines names.key := by
    rw [wiredLines, withEntry_of_isBlank h, rebuiltLines_contribution hset hne hline hquote]
  rw [wired, upserted, hlines,
    bodyLines_of_nodup (isLine_contributionLines hline) (nodup_contributionLines _)]

/-- The block with the entry of one module. -/
def oneEntry (names : ModuleNames) (found : Enclosed) : Enclosed :=
  { found with body := blockBody (indentOf found.before) (contributionLines names.key) }

/-- With its entry cut out, the block of one module is blank. -/
theorem isBlank_removeEntry_oneEntry (hplain : names.IsPlain) :
    isBlank (removeEntry names.key (oneEntry names found).body) = true := by
  have hline := (isLine_of_isKeyChar hplain.chars.2).1
  have hbody : (oneEntry names found).body =
      '\n' :: (contribution names.key ++ '\n' :: indentOf found.before) := rfl
  rw [hbody, removeEntry_contribution hline]
  have hindent := isBlank_indentOf found.before
  simp only [isBlank, List.all_cons, Bool.and_eq_true]
  exact ⟨by decide, by decide, hindent⟩

theorem removeEntry_of_isBlank {body : Text} (h : isBlank body = true) (key : Text) :
    removeEntry key body = body :=
  removeEntry_of_notMem fun hquote ↦ absurd (List.all_eq_true.1 h _ hquote) (by decide)

theorem existingLines_oneEntry (hplain : names.IsPlain) :
    existingLines (oneEntry names found).body = contributionLines names.key :=
  existingLines_blockBody (isLine_contributionLines (isLine_of_isKeyChar hplain.chars.2).1) _

/-- The block of one module, in a registry that has been written. -/
theorem rewired_oneEntry (hset : ∀ chunks, (setOrder chunks).Perm chunks.dedup)
    (hplain : names.IsPlain) (hfile : EmptyBlock file found) :
    wired setOrder names (readParts found) = oneEntry names (readParts found) ∧
      Rewired (readParts found) (registryText (oneEntry names (readParts found)))
        (oneEntry names (readParts found)) := by
  have hblank : isBlank (readParts found).body = true := isBlank_universalNewlines hfile.2
  have hmark : '#' ∉ (readParts found).body :=
    fun hmark ↦ absurd (List.all_eq_true.1 hblank _ hmark) (by decide)
  have hwired : wired setOrder names (readParts found) = oneEntry names (readParts found) :=
    wired_of_isBlank hset hplain (by rw [removeEntry_of_isBlank hblank]; exact hblank)
  have hrewired : Rewired _ (registryText (wired setOrder names _)) _ :=
    rewired_wired hset (between_read hfile.1) hmark
  rw [hwired] at hrewired
  exact ⟨hwired, hrewired⟩

/-- The first call writes the entry. -/
theorem wire_first (hset : ∀ chunks, (setOrder chunks).Perm chunks.dedup) (hplain : names.IsPlain)
    (hfile : EmptyBlock file found) : wireRouterContribution setOrder names file =
      .ok (registryText (oneEntry names (readParts found)), true) := by
  have hread := between_read hfile.1
  obtain ⟨hwired, hrewired⟩ := rewired_oneEntry hset hplain hfile
  have hdiff : registryText (oneEntry names (readParts found)) ≠ universalNewlines file := by
    intro hsame
    have hmarks := hrewired.marks
    rw [hsame, hread] at hmarks
    -- otherwise the blank block would have the lines of the entry
    have hlines := existingLines_of_isBlank (isBlank_universalNewlines hfile.2)
    have hbody : universalNewlines found.body = (oneEntry names (readParts found)).body :=
      congrArg Enclosed.body (Option.some.inj hmarks)
    rw [hbody, existingLines_oneEntry hplain] at hlines
    exact absurd hlines (List.cons_ne_nil _ _)
  rw [wireRouterContribution_eq hread, hwired, if_neg hdiff]

/-- And each later one leaves it there. -/
theorem wire_again (hset : ∀ chunks, (setOrder chunks).Perm chunks.dedup) (hplain : names.IsPlain)
    (hfile : EmptyBlock file found) :
    wireRouterContribution setOrder names (registryText (oneEntry names (readParts found))) =
      .ok (registryText (oneEntry names (readParts found)), false) := by
  obtain ⟨-, hrewired⟩ := rewired_oneEntry hset hplain hfile
  have hsame := universalNewlines_of_notMem hrewired.read
  have hmarks := hrewired.marks
  rw [← hsame] at hmarks
  have hwired : wired setOrder names (oneEntry names (readParts found)) =
      oneEntry names (readParts found) :=
    wired_of_isBlank hset hplain (isBlank_removeEntry_oneEntry hplain)
  rw [wireRouterContribution_eq hmarks, hwired, if_pos hsame.symm]

theorem wireAll_cons {changed : Bool}
    (h : wireRouterContribution setOrder names file = .ok (file', changed)) :
    wireAll setOrder (names :: calls) file = wireAll setOrder calls file' := by
  rw [wireAll, h]

theorem wireAll_again (hset : ∀ chunks, (setOrder chunks).Perm chunks.dedup) (hplain : names.IsPlain)
    (hfile : EmptyBlock file found) (n : ℕ) :
    wireAll setOrder (List.replicate n names) (registryText (oneEntry names (readParts found))) =
      .ok (registryText (oneEntry names (readParts found))) := by
  induction n with
  | zero => rfl
  | succ n ih => rw [List.replicate_succ, wireAll_cons (wire_again hset hplain hfile), ih]

/-- Any number of calls for one module do what the first one does. -/
theorem wireAll_replicate (hset : ∀ chunks, (setOrder chunks).Perm chunks.dedup)
    (hplain : names.IsPlain) (hfile : EmptyBlock file found) (n : ℕ) :
    wireAll setOrder (List.replicate (n + 1) names) file =
      .ok (registryText (oneEntry names (readParts found))) := by
  rw [List.replicate_succ, wireAll_cons (wire_first hset hplain hfile),
    wireAll_again hset hplain hfile]

theorem entryLines_replicate (hplain : names.IsPlain) (n : ℕ) :
    entryLines (List.replicate (n + 1) names) = contributionLines names.key := by
  have hkeys : ((List.replicate (n + 1) names).map ModuleNames.key).dedup = [names.key] := by
    rw [List.map_replicate, List.replicate_dedup (Nat.succ_ne_zero n)]
  rw [entryLines, hkeys, List.mergeSort_singleton, List.flatMap_singleton,
    splitLines_contribution (isLine_of_isKeyChar hplain.chars.2).1]

/-- Calls for one module compose. -/
theorem composes_replicate (hset : ∀ chunks, (setOrder chunks).Perm chunks.dedup)
    (hplain : names.IsPlain) (hfile : EmptyBlock file found) (hbefore : '\r' ∉ found.before)
    (hafter : '\r' ∉ found.after) (n : ℕ) :
    Composes setOrder file found (List.replicate (n + 1) names) where
  complete := by
    refine ⟨_, oneEntry names (readParts found), wireAll_replicate hset hplain hfile n,
      (rewired_oneEntry hset hplain hfile).2.marks, universalNewlines_of_notMem hbefore,
      universalNewlines_of_notMem hafter, ?_⟩
    rw [existingLines_oneEntry hplain, entryLines_replicate hplain]
  again := by
    intro file' names' hrun hlast
    obtain rfl := Except.ok.inj (hrun.symm.trans (wireAll_replicate hset hplain hfile n))
    obtain rfl := List.eq_of_mem_replicate (List.mem_of_getLast? hlast)
    exact wire_again hset hplain hfile
  anyOrder := by
    intro calls' hperm
    rw [List.perm_replicate.1 hperm]

/-- No calls leave everything as it is. -/
theorem composes_nil (hfile : EmptyBlock file found) : Composes setOrder file found [] where
  complete := ⟨file, found, rfl, hfile.1, rfl, rfl, by
    rw [existingLines_of_isBlank hfile.2]
    simp [entryLines]⟩
  again := fun _ _ _ hlast ↦ nomatch hlast
  anyOrder := by
    intro calls' hperm
    rw [List.perm_nil.1 hperm]

/-! ### When router entries compose -/

/-- Calls compose exactly if there are none, or if they are all for one module, whose key has no newline in it,
and no carriage return stands around the block. -/
theorem router_wiring_composes (hset : ∀ chunks, (setOrder chunks).Perm chunks.dedup)
    (hfile : EmptyBlock file found) (calls : List ModuleNames) :
    Composes setOrder file found calls ↔ calls = [] ∨ OneModule found calls := by
  constructor
  · intro h
    by_cases hne : calls = []
    · exact .inl hne
    · exact .inr (oneModule_of_composes hset hfile h hne)
  · rintro (rfl | ⟨⟨names, hplain, hall⟩, hbefore, hafter⟩)
    · exact composes_nil hfile
    · match calls with
      | [] => exact composes_nil hfile
      | n :: calls =>
        rw [List.eq_replicate_of_mem hall]
        exact composes_replicate hset hplain hfile hbefore hafter calls.length

/-- A registry without modules. -/
def emptyRegistry : Text :=
  "ROUTERS = \x7b\n    # <generic-app:router-contributions>\n    # </generic-app:router-contributions>\n\x7d\n".toList

def emptyBlock : Enclosed := ⟨"ROUTERS = \x7b\n    ".toList, "\n    ".toList, "\n\x7d\n".toList⟩

def billing : ModuleNames := ⟨"billing".toList, by decide⟩

def reports : ModuleNames := ⟨"reports".toList, by decide⟩

theorem emptyBlock_emptyRegistry : EmptyBlock emptyRegistry emptyBlock := by
  decide +kernel

/-- One module, wired twice. -/
theorem router_wiring_composes_billing :
    EmptyBlock emptyRegistry emptyBlock ∧ OneModule emptyBlock [billing, billing] ∧
      Composes List.dedup emptyRegistry emptyBlock [billing, billing] := by
  have hone : OneModule emptyBlock [billing, billing] :=
    ⟨⟨billing, by decide, by simp⟩, by decide, by decide⟩
  exact ⟨emptyBlock_emptyRegistry, hone,
    (router_wiring_composes (fun _ ↦ .refl _) emptyBlock_emptyRegistry _).2 (.inr hone)⟩

/-- Of two modules the second one is left without its closing line. -/
theorem second_entry_is_cut_short :
    ¬Composes List.dedup emptyRegistry emptyBlock [billing, reports] := by
  intro h
  obtain ⟨⟨names, -, hall⟩, -⟩ :=
    oneModule_of_composes (fun _ ↦ .refl _) emptyBlock_emptyRegistry h (List.cons_ne_nil _ _)
  have hbilling := hall billing List.mem_cons_self
  have hreports := hall reports (List.mem_cons_of_mem _ List.mem_cons_self)
  exact absurd (hbilling.trans hreports.symm) (by decide)

end GenericApp
