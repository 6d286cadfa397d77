import GenericApp.Foundation.Outcomes
import GenericApp.Foundation.Worklist
import Mathlib.Data.Finset.Sort
import Mathlib.Data.String.Basic

/-!
# The modules that are enabled

`resolve_effective_modules`: the modules that are always enabled, the optional ones that were chosen and those of the
profile, with all that these depend on. `resolve_spec` says when it is refused, and that else the answer is the least
such set, which the checking mode accepts.

Sets are iterated in any order (`SetIteration`), and `repr` is any function on texts.
-/

namespace GenericApp

/-! ### Manifests -/

instance isTrans_le_string : IsTrans String (· ≤ ·) := ⟨fun _ _ _ ↦ le_trans⟩

instance antisymm_le_string : Std.Antisymm fun a b : String ↦ a ≤ b := ⟨fun _ _ ↦ le_antisymm⟩

/-- `ModuleManifest`, as far as the resolution reads it. -/
structure ModuleManifest where
  key : String
  dependencies : List String
  alwaysEnabled : Bool
  optional : Bool

/-- What is raised: a `ModuleManifestError`, or the `KeyError` of a look-up. -/
inductive ManifestFailure
  | manifest (message : String)
  | key (key : String)

/-- `index_manifests`: the manifests under their keys. -/
def indexManifests : List ModuleManifest → List ModuleManifest → Except ManifestFailure (List ModuleManifest)
  | byKey, [] => .ok byKey
  | byKey, manifest :: manifests =>
    if byKey.any fun other ↦ other.key = manifest.key then
      .error (.manifest ("Duplicate module manifest key: " ++ manifest.key))
    else indexManifests (byKey ++ [manifest]) manifests

/-- `by_key[key]` -/
def manifestAt (byKey : List ModuleManifest) (key : String) : Except ManifestFailure ModuleManifest :=
  match byKey.find? fun manifest ↦ manifest.key = key with
  | some manifest => .ok manifest
  | none => .error (.key key)

/-- `set(by_key)` -/
def manifestKeys (byKey : List ModuleManifest) : Finset String := (byKey.map ModuleManifest.key).toFinset

/-- The dependencies of a key, if it is one. -/
def dependenciesOf (byKey : List ModuleManifest) (key : String) : List String :=
  match byKey.find? fun manifest ↦ manifest.key = key with
  | some manifest => manifest.dependencies
  | none => []

/-- The order in which the elements of a set come when it is iterated. -/
structure SetIteration where
  elements : Finset String → List String
  mem : ∀ s a, a ∈ elements s ↔ a ∈ s
  nodup : ∀ s, (elements s).Nodup

/-! ### Resolution -/

section Resolution

variable (iteration : SetIteration) (repr : String → String)

/-- The loop over the optional modules that were chosen. -/
def enableOptional (byKey : List ModuleManifest) : List String → Finset String → Except ManifestFailure (Finset String)
  | [], enabled => .ok enabled
  | key :: keys, enabled => do
    let manifest ← manifestAt byKey key
    if manifest.alwaysEnabled then enableOptional byKey keys enabled
    else if ¬manifest.optional then
      .error (.manifest ("Module " ++ repr key ++ " is not an optional pack toggle; " ++
        "enable it via capability profile modules instead"))
    else enableOptional byKey keys (insert key enabled)

/-- The loop over the modules of the profile. -/
def enableSelected (byKey : List ModuleManifest) : List String → Finset String → Except ManifestFailure (Finset String)
  | [], enabled => .ok enabled
  | key :: keys, enabled => do
    let manifest ← manifestAt byKey key
    if manifest.alwaysEnabled then enableSelected byKey keys enabled
    else if manifest.optional then enableSelected byKey keys (insert key enabled)
    else enableSelected byKey keys (insert key enabled)

/-- `_close_dependencies`. The last that is pending is popped. -/
def closeDependencies (byKey : List ModuleManifest) (seeds : Finset String) :
    Except ManifestFailure (Finset String) :=
  let pending := (iteration.elements seeds).reverse
  (runWorklist (manifestKeys byKey) (dependenciesOf byKey) ⟨seeds, pending⟩).mapError fun
    | .target key dependency =>
      .manifest ("Module " ++ repr key ++ " depends on unknown module " ++ repr dependency)
    | .source key => .key key

/-- What the enabled modules lack. -/
def missingDependencies (byKey : List ModuleManifest) (enabled : Finset String) :
    List String → Except ManifestFailure (List String)
  | [] => .ok []
  | key :: keys => do
    let manifest ← manifestAt byKey key
    let missing ← missingDependencies byKey enabled keys
    .ok ((manifest.dependencies.filter fun dependency ↦ dependency ∉ enabled).map
      (fun dependency ↦ key ++ " -> " ++ dependency) ++ missing)

/-- `resolve_effective_modules` -/
def resolveEffectiveModules (manifests : List ModuleManifest) (enabledOptional enabledSelected : List String)
    (close : Bool) : Except ManifestFailure (Finset String) := do
  let byKey ← indexManifests [] manifests
  let unknown := (enabledOptional.toFinset ∪ enabledSelected.toFinset) \ manifestKeys byKey
  if unknown.Nonempty then
    .error (.manifest ("Unknown module(s) in pack/overrides/profile: " ++ ", ".intercalate unknown.sort))
  else do
    let always := ((byKey.filter ModuleManifest.alwaysEnabled).map ModuleManifest.key).toFinset
    let enabled ← enableOptional repr byKey (iteration.elements enabledOptional.toFinset) always
    let enabled ← enableSelected byKey (iteration.elements enabledSelected.toFinset) enabled
    if close then closeDependencies iteration repr byKey enabled
    else do
      let missing ← missingDependencies byKey enabled enabled.sort
      if missing.isEmpty then .ok enabled
      else .error (.manifest ("Enabled module is missing required dependencies: " ++ "; ".intercalate missing))

end Resolution

/-! ### What the loops do -/

section Loops

variable {manifests : List ModuleManifest}

theorem mem_manifestKeys {key : String} : key ∈ manifestKeys manifests ↔ ∃ manifest ∈ manifests, manifest.key = key := by
  rw [manifestKeys, List.mem_toFinset, List.mem_map]

theorem indexManifests_of_nodup {byKey : List ModuleManifest}
    (h : ((byKey ++ manifests).map ModuleManifest.key).Nodup) :
    indexManifests byKey manifests = .ok (byKey ++ manifests) := by
  induction manifests generalizing byKey with
  | nil => rw [indexManifests, List.append_nil]
  | cons manifest manifests ih =>
    have hnew : (byKey.any fun other ↦ other.key = manifest.key) = false := by
      rw [List.map_append, List.map_cons] at h
      have hdisjoint := (List.nodup_append.1 h).2.2
      refine List.any_eq_false.2 fun other hother hkey ↦ ?_
      exact hdisjoint _ (List.mem_map_of_mem hother) _ List.mem_cons_self (of_decide_eq_true hkey)
    rw [indexManifests, hnew, if_neg Bool.false_ne_true, ih (by rwa [List.append_assoc]), List.append_assoc]
    rfl

variable (hdistinct : (manifests.map ModuleManifest.key).Nodup)

include hdistinct

/-- A manifest is found under its key. -/
theorem find?_key {manifest : ModuleManifest} (h : manifest ∈ manifests) :
    (manifests.find? fun other ↦ other.key = manifest.key) = some manifest := by
  rcases hfound : manifests.find? fun other ↦ other.key = manifest.key with - | other
  · exact absurd (decide_eq_true rfl) (List.find?_eq_none.1 hfound manifest h)
  · have hkey := List.find?_some hfound
    refine hfound.trans (congrArg some ?_)
    exact (List.inj_on_of_nodup_map hdistinct (List.mem_of_find?_eq_some hfound) h (of_decide_eq_true hkey))

theorem manifestAt_key {manifest : ModuleManifest} (h : manifest ∈ manifests) :
    manifestAt manifests manifest.key = .ok manifest := by
  rw [manifestAt, find?_key hdistinct h]

theorem dependenciesOf_key {manifest : ModuleManifest} (h : manifest ∈ manifests) :
    dependenciesOf manifests manifest.key = manifest.dependencies := by
  rw [dependenciesOf, find?_key hdistinct h]

omit hdistinct in
theorem dependenciesOf_unknown {key : String} (h : key ∉ manifestKeys manifests) : dependenciesOf manifests key = [] := by
  have hnone : (manifests.find? fun manifest ↦ manifest.key = key) = none :=
    List.find?_eq_none.2 fun manifest hmem hkey ↦ h (mem_manifestKeys.2 ⟨manifest, hmem, of_decide_eq_true hkey⟩)
  rw [dependenciesOf, hnone]

/-- The optional modules that were chosen are added, unless one is not optional. -/
theorem enableOptional_spec (repr : String → String) {keys : List String} {enabled : Finset String}
    (hkeys : ∀ key ∈ keys, key ∈ manifestKeys manifests)
    (halways : ∀ manifest ∈ manifests, manifest.alwaysEnabled → manifest.key ∈ enabled) :
    ((∃ manifest ∈ manifests, manifest.key ∈ keys ∧ ¬manifest.optional ∧ ¬manifest.alwaysEnabled) ∧
        ∃ message, enableOptional repr manifests keys enabled = .error (.manifest message)) ∨
      ((∀ manifest ∈ manifests, manifest.key ∈ keys → manifest.optional ∨ manifest.alwaysEnabled) ∧
        enableOptional repr manifests keys enabled = .ok (enabled ∪ keys.toFinset)) := by
  induction keys generalizing enabled with
  | nil => exact .inr ⟨fun _ _ h ↦ absurd h List.not_mem_nil, by simp [enableOptional]⟩
  | cons key keys ih =>
    obtain ⟨hkey, hothers⟩ := List.forall_mem_cons.1 hkeys
    obtain ⟨manifest, hmem, rfl⟩ := mem_manifestKeys.1 hkey
    have honly : ∀ other ∈ manifests, other.key ∈ manifest.key :: keys → other = manifest ∨ other.key ∈ keys :=
      fun other hother hin ↦ by
        rcases List.mem_cons.1 hin with heq | hin
        · exact .inl (List.inj_on_of_nodup_map hdistinct hother hmem heq)
        · exact .inr hin
    have hstep : enableOptional repr manifests (manifest.key :: keys) enabled =
        if manifest.alwaysEnabled then enableOptional repr manifests keys enabled
        else if ¬manifest.optional then
          .error (.manifest ("Module " ++ repr manifest.key ++ " is not an optional pack toggle; " ++
            "enable it via capability profile modules instead"))
        else enableOptional repr manifests keys (insert manifest.key enabled) := by
      rw [enableOptional, manifestAt_key hdistinct hmem]
      rfl
    by_cases hon : manifest.alwaysEnabled = true
    · rw [hstep, if_pos hon]
      rcases ih hothers halways with ⟨⟨bad, hbad, hin, hrest⟩, herror⟩ | ⟨hall, hok⟩
      · exact .inl ⟨⟨bad, hbad, List.mem_cons_of_mem _ hin, hrest⟩, herror⟩
      · refine .inr ⟨fun other hother hin ↦ ?_, hok.trans ?_⟩
        · rcases honly other hother hin with rfl | hin
          · exact .inr hon
          · exact hall other hother hin
        · rw [List.toFinset_cons, Finset.union_insert, Finset.insert_eq_of_mem
            (Finset.mem_union_left _ (halways manifest hmem hon))]
    · by_cases hoptional : manifest.optional = true
      · rw [hstep, if_neg hon, if_neg (not_not.2 hoptional)]
        have halways' : ∀ other ∈ manifests, other.alwaysEnabled → other.key ∈ insert manifest.key enabled :=
          fun other hother h ↦ Finset.mem_insert_of_mem (halways other hother h)
        rcases ih hothers halways' with ⟨⟨bad, hbad, hin, hrest⟩, herror⟩ | ⟨hall, hok⟩
        · exact .inl ⟨⟨bad, hbad, List.mem_cons_of_mem _ hin, hrest⟩, herror⟩
        · refine .inr ⟨fun other hother hin ↦ ?_, hok.trans ?_⟩
          · rcases honly other hother hin with rfl | hin
            · exact .inl hoptional
            · exact hall other hother hin
          · rw [List.toFinset_cons, Finset.union_insert, Finset.insert_union]
      · rw [hstep, if_neg hon, if_pos hoptional]
        exact .inl ⟨⟨manifest, hmem, List.mem_cons_self, hoptional, hon⟩, _, rfl⟩

/-- The modules of the profile are added. -/
theorem enableSelected_spec {keys : List String} {enabled : Finset String}
    (hkeys : ∀ key ∈ keys, key ∈ manifestKeys manifests)
    (halways : ∀ manifest ∈ manifests, manifest.alwaysEnabled → manifest.key ∈ enabled) :
    enableSelected manifests keys enabled = .ok (enabled ∪ keys.toFinset) := by
  induction keys generalizing enabled with
  | nil => simp [enableSelected]
  | cons key keys ih =>
    obtain ⟨hkey, hothers⟩ := List.forall_mem_cons.1 hkeys
    obtain ⟨manifest, hmem, rfl⟩ := mem_manifestKeys.1 hkey
    have hstep : enableSelected manifests (manifest.key :: keys) enabled =
        if manifest.alwaysEnabled then enableSelected manifests keys enabled
        else enableSelected manifests keys (insert manifest.key enabled) := by
      rw [enableSelected, manifestAt_key hdistinct hmem]
      dsimp only [bind, Except.bind]
      rw [ite_self]
    rw [hstep, List.toFinset_cons, Finset.union_insert]
    split
    · next hon =>
      rw [ih hothers halways, Finset.insert_eq_of_mem (Finset.mem_union_left _ (halways manifest hmem hon))]
    · rw [ih hothers fun other hother h ↦ Finset.mem_insert_of_mem (halways other hother h), Finset.insert_union]

/-- Nothing is missing if and only if the dependencies are enabled. -/
theorem missingDependencies_spec {keys : List String} (enabled : Finset String)
    (hkeys : ∀ key ∈ keys, key ∈ manifestKeys manifests) :
    ∃ missing, missingDependencies manifests enabled keys = .ok missing ∧
      (missing = [] ↔ ∀ key ∈ keys, ∀ dependency ∈ dependenciesOf manifests key, dependency ∈ enabled) := by
  induction keys with
  | nil => exact ⟨[], rfl, by simp⟩
  | cons key keys ih =>
    obtain ⟨hkey, hothers⟩ := List.forall_mem_cons.1 hkeys
    obtain ⟨manifest, hmem, rfl⟩ := mem_manifestKeys.1 hkey
    obtain ⟨missing, hmissing, hiff⟩ := ih hothers
    refine ⟨(manifest.dependencies.filter fun dependency ↦ dependency ∉ enabled).map
      (fun dependency ↦ manifest.key ++ " -> " ++ dependency) ++ missing, ?_, ?_⟩
    · rw [missingDependencies, manifestAt_key hdistinct hmem, hmissing]
      rfl
    · rw [List.append_eq_nil_iff, List.map_eq_nil_iff, List.filter_eq_nil_iff, hiff, List.forall_mem_cons,
        dependenciesOf_key hdistinct hmem]
      simp

end Loops

/-! ### The result -/

/-- The modules to begin with. -/
def seedModules (manifests : List ModuleManifest) (enabledOptional enabledSelected : List String) : Finset String :=
  ((manifests.filter ModuleManifest.alwaysEnabled).map ModuleManifest.key).toFinset ∪ enabledOptional.toFinset ∪
    enabledSelected.toFinset

/-- Why a resolution is refused: an unknown key, a choice that is none, or an unknown dependency of a module that is
reached. -/
def Unresolvable (manifests : List ModuleManifest) (enabledOptional enabledSelected : List String) : Prop :=
  (∃ key ∈ enabledOptional ++ enabledSelected, ∀ manifest ∈ manifests, manifest.key ≠ key) ∨
    (∃ manifest ∈ manifests, manifest.key ∈ enabledOptional ∧ ¬manifest.optional ∧ ¬manifest.alwaysEnabled) ∨
    ∃ manifest ∈ manifests,
      ReachedFrom (dependenciesOf manifests) (seedModules manifests enabledOptional enabledSelected) manifest.key ∧
        ∃ dependency ∈ manifest.dependencies, ∀ other ∈ manifests, other.key ≠ dependency

/-- The sets that would do: with the modules that are always enabled and those that were asked for, and closed under
dependencies. -/
def Sufficient (manifests : List ModuleManifest) (enabledOptional enabledSelected : List String) :
    Set (Set String) :=
  {s | (∀ manifest ∈ manifests, manifest.alwaysEnabled → manifest.key ∈ s) ∧
    (∀ key ∈ enabledOptional ++ enabledSelected, key ∈ s) ∧
    ∀ manifest ∈ manifests, manifest.key ∈ s → ∀ dependency ∈ manifest.dependencies, dependency ∈ s}

section Result

variable (iteration : SetIteration) (repr : String → String) {manifests : List ModuleManifest}
  {enabledOptional enabledSelected : List String}

theorem mem_seedModules {key : String} : key ∈ seedModules manifests enabledOptional enabledSelected ↔
    (∃ manifest ∈ manifests, manifest.alwaysEnabled ∧ manifest.key = key) ∨
      key ∈ enabledOptional ++ enabledSelected := by
  simp only [seedModules, Finset.mem_union, List.mem_toFinset, List.mem_map, List.mem_filter, List.mem_append,
    or_assoc, and_assoc]

/-- Sets of the library and of the module. -/
theorem sufficient_eq (hdistinct : (manifests.map ModuleManifest.key).Nodup) :
    Sufficient manifests enabledOptional enabledSelected =
      {s | ↑(seedModules manifests enabledOptional enabledSelected) ⊆ s ∧
        ClosedUnder (dependenciesOf manifests) s} := by
  ext s
  have hclosed : ClosedUnder (dependenciesOf manifests) s ↔
      ∀ manifest ∈ manifests, manifest.key ∈ s → ∀ dependency ∈ manifest.dependencies, dependency ∈ s := by
    constructor
    · intro h manifest hmem hkey dependency hdependency
      exact h _ hkey dependency (by rwa [dependenciesOf_key hdistinct hmem])
    · intro h key hkey dependency hdependency
      by_cases hknown : key ∈ manifestKeys manifests
      · obtain ⟨manifest, hmem, rfl⟩ := mem_manifestKeys.1 hknown
        rw [dependenciesOf_key hdistinct hmem] at hdependency
        exact h manifest hmem hkey dependency hdependency
      · rw [dependenciesOf_unknown hknown] at hdependency
        exact absurd hdependency List.not_mem_nil
  have hseeds : ↑(seedModules manifests enabledOptional enabledSelected) ⊆ s ↔
      (∀ manifest ∈ manifests, manifest.alwaysEnabled → manifest.key ∈ s) ∧
        ∀ key ∈ enabledOptional ++ enabledSelected, key ∈ s := by
    constructor
    · intro h
      exact ⟨fun manifest hmem hon ↦ h (mem_seedModules.2 (.inl ⟨manifest, hmem, hon, rfl⟩)),
        fun key hkey ↦ h (mem_seedModules.2 (.inr hkey))⟩
    · rintro ⟨halways, hrequested⟩ key hkey
      rcases mem_seedModules.1 hkey with ⟨manifest, hmem, hon, rfl⟩ | hkey
      · exact halways manifest hmem hon
      · exact hrequested key hkey
  rw [Sufficient, Set.mem_ofPred_eq, Set.mem_ofPred_eq, hseeds, hclosed, and_assoc]

theorem seedModules_subset (hknown : ∀ key ∈ enabledOptional ++ enabledSelected, key ∈ manifestKeys manifests) :
    seedModules manifests enabledOptional enabledSelected ⊆ manifestKeys manifests := by
  intro key hkey
  rcases mem_seedModules.1 hkey with ⟨manifest, hmem, -, rfl⟩ | hkey
  · exact mem_manifestKeys.2 ⟨manifest, hmem, rfl⟩
  · exact hknown key hkey

variable (hdistinct : (manifests.map ModuleManifest.key).Nodup)

include hdistinct

theorem resolve_unknown (close : Bool) {key : String} (hkey : key ∈ enabledOptional ++ enabledSelected)
    (hunknown : key ∉ manifestKeys manifests) : ∃ message,
      resolveEffectiveModules iteration repr manifests enabledOptional enabledSelected close =
        .error (.manifest message) := by
  have hindex : indexManifests [] manifests = .ok manifests := indexManifests_of_nodup hdistinct
  have hsome : ((enabledOptional.toFinset ∪ enabledSelected.toFinset) \ manifestKeys manifests).Nonempty := by
    refine ⟨key, Finset.mem_sdiff.2 ⟨?_, hunknown⟩⟩
    simpa using hkey
  rw [resolveEffectiveModules, hindex]
  exact ⟨_, if_pos hsome⟩

/-- With known keys, the seeds are enabled, or a choice is none. -/
theorem resolve_known (close : Bool)
    (hknown : ∀ key ∈ enabledOptional ++ enabledSelected, key ∈ manifestKeys manifests) :
    ((∃ manifest ∈ manifests, manifest.key ∈ enabledOptional ∧ ¬manifest.optional ∧ ¬manifest.alwaysEnabled) ∧
        ∃ message, resolveEffectiveModules iteration repr manifests enabledOptional enabledSelected close =
          .error (.manifest message)) ∨
      ((∀ manifest ∈ manifests, manifest.key ∈ enabledOptional → manifest.optional ∨ manifest.alwaysEnabled) ∧
        resolveEffectiveModules iteration repr manifests enabledOptional enabledSelected close =
          let enabled := seedModules manifests enabledOptional enabledSelected
          if close then closeDependencies iteration repr manifests enabled
          else (missingDependencies manifests enabled enabled.sort).bind fun missing ↦
            if missing.isEmpty then .ok enabled
            else .error (.manifest ("Enabled module is missing required dependencies: " ++
              "; ".intercalate missing))) := by
  have hindex : indexManifests [] manifests = .ok manifests := indexManifests_of_nodup hdistinct
  have hnone : ¬((enabledOptional.toFinset ∪ enabledSelected.toFinset) \ manifestKeys manifests).Nonempty := by
    rintro ⟨key, hkey⟩
    obtain ⟨hkey, hunknown⟩ := Finset.mem_sdiff.1 hkey
    exact hunknown (hknown key (by simpa using hkey))
  have helements : ∀ keys : List String, ((iteration.elements keys.toFinset).toFinset) = keys.toFinset := fun keys ↦ by
    ext key
    rw [List.mem_toFinset, iteration.mem]
  have hmem : ∀ (keys : List String) key, key ∈ iteration.elements keys.toFinset ↔ key ∈ keys := fun keys key ↦ by
    rw [iteration.mem, List.mem_toFinset]
  let always := ((manifests.filter ModuleManifest.alwaysEnabled).map ModuleManifest.key).toFinset
  have halways : ∀ manifest ∈ manifests, manifest.alwaysEnabled → manifest.key ∈ always := fun manifest hin hon ↦
    List.mem_toFinset.2 (List.mem_map_of_mem (List.mem_filter.2 ⟨hin, hon⟩))
  have hoptional := enableOptional_spec hdistinct repr
    (fun key hkey ↦ hknown key (List.mem_append_left _ ((hmem enabledOptional key).1 hkey))) halways
  have hselected := enableSelected_spec hdistinct
    (fun key hkey ↦ hknown key (List.mem_append_right _ ((hmem enabledSelected key).1 hkey)))
    fun manifest hin hon ↦ Finset.mem_union_left enabledOptional.toFinset (halways manifest hin hon)
  simp only [hmem, helements] at hoptional hselected
  rw [resolveEffectiveModules, hindex]
  dsimp only [bind, Except.bind]
  rw [if_neg hnone]
  rcases hoptional with ⟨hbad, message, herror⟩ | ⟨hall, hok⟩
  · exact .inl ⟨hbad, message, by rw [herror]⟩
  · refine .inr ⟨hall, ?_⟩
    rw [hok]
    dsimp only
    rw [hselected]
    rfl

/-- Closing is refused if something that is reached has an unknown dependency, and else gives the least set. -/
theorem closeDependencies_spec {seeds : Finset String} (hseeds : seeds ⊆ manifestKeys manifests) :
    ((∃ manifest ∈ manifests, ReachedFrom (dependenciesOf manifests) seeds manifest.key ∧
          ∃ dependency ∈ manifest.dependencies, ∀ other ∈ manifests, other.key ≠ dependency) ∧
        ∃ message, closeDependencies iteration repr manifests seeds = .error (.manifest message)) ∨
      ((¬∃ manifest ∈ manifests, ReachedFrom (dependenciesOf manifests) seeds manifest.key ∧
          ∃ dependency ∈ manifest.dependencies, ∀ other ∈ manifests, other.key ≠ dependency) ∧
        ∃ enabled, closeDependencies iteration repr manifests seeds = .ok enabled ∧
          enabled ⊆ manifestKeys manifests ∧
          IsLeast {s : Set String | ↑seeds ⊆ s ∧ ClosedUnder (dependenciesOf manifests) s} ↑enabled) := by
  have hpending : ∀ key, key ∈ (iteration.elements seeds).reverse ↔ key ∈ seeds := fun key ↦ by
    rw [List.mem_reverse, iteration.mem]
  have hunknown : ∀ dependency, dependency ∉ manifestKeys manifests ↔ ∀ other ∈ manifests, other.key ≠ dependency :=
    fun dependency ↦ by
      rw [mem_manifestKeys]
      push Not
      exact Iff.rfl
  have hrefused : (∃ source ∈ manifestKeys manifests, ReachedFrom (dependenciesOf manifests) seeds source ∧
      ∃ target ∈ dependenciesOf manifests source, target ∉ manifestKeys manifests) ↔
      ∃ manifest ∈ manifests, ReachedFrom (dependenciesOf manifests) seeds manifest.key ∧
        ∃ dependency ∈ manifest.dependencies, ∀ other ∈ manifests, other.key ≠ dependency := by
    constructor
    · rintro ⟨source, hsource, hreached, target, htarget, hbad⟩
      obtain ⟨manifest, hmem, rfl⟩ := mem_manifestKeys.1 hsource
      rw [dependenciesOf_key hdistinct hmem] at htarget
      exact ⟨manifest, hmem, hreached, target, htarget, (hunknown target).1 hbad⟩
    · rintro ⟨manifest, hmem, hreached, dependency, hdependency, hbad⟩
      refine ⟨manifest.key, mem_manifestKeys.2 ⟨manifest, hmem, rfl⟩, hreached, dependency, ?_,
        (hunknown dependency).2 hbad⟩
      rwa [dependenciesOf_key hdistinct hmem]
  have herrors : _ ↔ ∃ source ∈ manifestKeys manifests, ReachedFrom (dependenciesOf manifests) seeds source ∧ _ :=
    runWorklist_error_iff hseeds hpending
  rw [← hrefused, ← herrors, closeDependencies]
  rcases hrun : runWorklist (manifestKeys manifests) (dependenciesOf manifests)
      ⟨seeds, (iteration.elements seeds).reverse⟩ with e | enabled
  · obtain ⟨source, target, rfl, -⟩ :=
      (runWorklist_spec (Worklist.Invariant.start hseeds hpending)).2 e hrun
    exact .inl ⟨⟨source, target, rfl⟩, _, rfl⟩
  · refine .inr ⟨fun ⟨_, _, herror⟩ ↦ (nomatch herror), enabled, rfl, ?_⟩
    exact isLeast_of_runWorklist hseeds hpending hrun

/-- **The resolution computes a least closure.** It is refused for one of the three reasons, and for these only. Else
it gives the least set that would do, and the checking mode accepts that set. -/
theorem resolve_spec (enabledOptional enabledSelected : List String) :
    ((∃ message, resolveEffectiveModules iteration repr manifests enabledOptional enabledSelected true =
        .error (.manifest message)) ↔ Unresolvable manifests enabledOptional enabledSelected) ∧
      (¬Unresolvable manifests enabledOptional enabledSelected → ∃ enabled,
        resolveEffectiveModules iteration repr manifests enabledOptional enabledSelected true = .ok enabled ∧
          IsLeast (Sufficient manifests enabledOptional enabledSelected) ↑enabled ∧
          resolveEffectiveModules iteration repr manifests [] (iteration.elements enabled) false = .ok enabled) := by
  by_cases hknown : ∀ key ∈ enabledOptional ++ enabledSelected, key ∈ manifestKeys manifests
  swap
  · push Not at hknown
    obtain ⟨key, hkey, hunknown⟩ := hknown
    have hrefused : Unresolvable manifests enabledOptional enabledSelected :=
      .inl ⟨key, hkey, fun manifest hmem heq ↦ hunknown (mem_manifestKeys.2 ⟨manifest, hmem, heq⟩)⟩
    exact ⟨iff_of_true (resolve_unknown iteration repr hdistinct true hkey hunknown) hrefused,
      fun h ↦ absurd hrefused h⟩
  rcases resolve_known iteration repr hdistinct true hknown with ⟨hbad, herror⟩ | ⟨hall, hresolve⟩
  · exact ⟨iff_of_true herror (.inr (.inl hbad)), fun h ↦ absurd (.inr (.inl hbad)) h⟩
  dsimp only at hresolve
  rw [if_pos rfl] at hresolve
  rw [hresolve]
  rcases closeDependencies_spec iteration repr hdistinct (seedModules_subset hknown) with
    ⟨hbad, herror⟩ | ⟨hgood, enabled, hok, hsubset, hleast⟩
  · exact ⟨iff_of_true herror (.inr (.inr hbad)), fun h ↦ absurd (.inr (.inr hbad)) h⟩
  have hresolvable : ¬Unresolvable manifests enabledOptional enabledSelected := by
    rintro (⟨key, hkey, hunknown⟩ | ⟨manifest, hmem, hkey, hoptional, hon⟩ | hbad)
    · obtain ⟨manifest, hmem, heq⟩ := mem_manifestKeys.1 (hknown key hkey)
      exact hunknown manifest hmem heq
    · exact (hall manifest hmem hkey).elim hoptional hon
    · exact hgood hbad
  refine ⟨iff_of_false ?_ hresolvable, fun _ ↦ ⟨enabled, hok, ?_, ?_⟩⟩
  · rintro ⟨message, herror⟩
    rw [hok] at herror
    exact nomatch herror
  · rwa [sufficient_eq hdistinct]
  · -- the second call begins with what the first has returned, and nothing is missing
    have hseeds : seedModules manifests [] (iteration.elements enabled) = enabled := by
      ext key
      rw [mem_seedModules, List.nil_append, iteration.mem]
      refine ⟨?_, .inr⟩
      rintro (⟨manifest, hmem, hon, rfl⟩ | hkey)
      · exact hleast.1.1 (mem_seedModules.2 (.inl ⟨manifest, hmem, hon, rfl⟩))
      · exact hkey
    have hagain : ∀ key ∈ [] ++ iteration.elements enabled, key ∈ manifestKeys manifests := fun key hkey ↦
      hsubset ((iteration.mem enabled key).1 hkey)
    rcases resolve_known iteration repr hdistinct false hagain with ⟨⟨_, _, hnone, _⟩, _⟩ | ⟨-, hcheck⟩
    · exact absurd hnone List.not_mem_nil
    · dsimp only at hcheck
      rw [hseeds, if_neg Bool.false_ne_true] at hcheck
      obtain ⟨missing, hmissing, hnothing⟩ := missingDependencies_spec hdistinct enabled
        fun key hkey ↦ hsubset ((Finset.mem_sort (· ≤ ·)).1 hkey)
      have hempty : missing = [] := hnothing.2 fun key hkey dependency hdependency ↦
        hleast.1.2 key ((Finset.mem_sort (· ≤ ·)).1 hkey) dependency hdependency
      rw [hcheck, hmissing, hempty]
      rfl

end Result

/-- Sets in the order of their elements. -/
def sortedIteration : SetIteration where
  elements s := s.sort
  mem s a := Finset.mem_sort (· ≤ ·)
  nodup s := Finset.sort_nodup s (· ≤ ·)

/-- Two modules that depend on each other. -/
def cyclicManifests : List ModuleManifest :=
  [⟨"core", [], true, false⟩, ⟨"chat", ["rag"], false, true⟩, ⟨"rag", ["chat", "core"], false, false⟩]

theorem resolve_spec_cyclic :
    ((∃ message, resolveEffectiveModules sortedIteration id cyclicManifests ["chat"] [] true =
        .error (.manifest message)) ↔ Unresolvable cyclicManifests ["chat"] []) ∧
      (¬Unresolvable cyclicManifests ["chat"] [] → ∃ enabled,
        resolveEffectiveModules sortedIteration id cyclicManifests ["chat"] [] true = .ok enabled ∧
          IsLeast (Sufficient cyclicManifests ["chat"] []) ↑enabled ∧
          resolveEffectiveModules sortedIteration id cyclicManifests [] (sortedIteration.elements enabled) false =
            .ok enabled) :=
  resolve_spec sortedIteration id (by decide) ["chat"] []

end GenericApp
