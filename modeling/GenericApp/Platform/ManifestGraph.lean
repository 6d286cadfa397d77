import GenericApp.Foundation.DepthFirst
import GenericApp.Foundation.Python
import GenericApp.Platform.ModuleManifests

/-!
# The graph of the manifests

`validate_manifest_graph`: keys are taken once, dependencies are keys of other modules, nothing depends on itself in
the end, and what a module declares goes with its surface. The search for cycles calls itself; it is given a frame of
the stack more than there are modules, and `assertNoCycles_frames` says that more make no difference.

A module that is its own dependency is refused before the search begins, so the search is reached where there is no
such module (`manifestGraph_cycles`), and then it is refused if and only if there is a cycle.
-/

namespace GenericApp

open Py

/-! ### What a module declares -/

/-- `ModuleSurface` -/
inductive ModuleSurface
  | userFacing | adminFacing | embedded | apiOnly | internal
  deriving DecidableEq

/-- The value of a surface. -/
def ModuleSurface.value : ModuleSurface → String
  | .userFacing => "user_facing"
  | .adminFacing => "admin_facing"
  | .embedded => "embedded"
  | .apiOnly => "api_only"
  | .internal => "internal"

/-- `NavEntry`, of which the path is read. -/
structure NavEntry where
  path : String

/-- `FrontendRoute` -/
structure FrontendRoute where
  path : String
  pageKey : String

/-- `ModuleManifest`, with what the validation reads of it. -/
structure ModuleDeclaration extends ModuleManifest where
  userVisible : Bool := true
  surface : ModuleSurface := .userFacing
  embeddingHost : Option String := none
  backendRouterKeys : List String := []
  navEntries : List NavEntry := []
  frontendRoutes : List FrontendRoute := []

/-- What the validation raises, or the `RecursionError` of a stack without frames. -/
inductive GraphFailure
  | raised (failure : ManifestFailure)
  | recursion

/-- A `ModuleManifestError`. -/
def GraphFailure.manifest (message : String) : GraphFailure := .raised (.manifest message)

section Validation

variable (repr : String → String)

/-! ### Dependencies -/

/-- The error of a dependency, if it has one. -/
def dependencyError (byKey : List ModuleManifest) (manifest : ModuleManifest) (dependency : String) :
    Option String :=
  if byKey.all fun other ↦ other.key ≠ dependency then
    some ("Module " ++ repr manifest.key ++ " depends on unknown module " ++ repr dependency)
  else if dependency = manifest.key then
    some ("Module " ++ repr manifest.key ++ " cannot depend on itself")
  else none

/-- A loop that raises the first error it finds. -/
def raiseFirst {α : Type} (error : α → Option String) (items : List α) : Except GraphFailure Unit :=
  match items.findSome? error with
  | some message => .error (.manifest message)
  | none => .ok ()

/-- The loop over the dependencies. -/
def checkDependencies (byKey manifests : List ModuleManifest) : Except GraphFailure Unit :=
  raiseFirst (fun manifest ↦ manifest.dependencies.findSome? (dependencyError repr byKey manifest)) manifests

/-- `by_key[key].dependencies` -/
def dependenciesAt (byKey : List ModuleManifest) (key : String) : Option (List String) :=
  (byKey.find? fun manifest ↦ manifest.key = key).map ModuleManifest.dependencies

/-- What a refused search raises. -/
def searchFailure : SearchError String → GraphFailure
  | .cycle key => .manifest ("Module dependency cycle involving " ++ repr key)
  | .unknown key => .raised (.key key)
  | .stack => .recursion

/-- `_assert_no_cycles`, with the marks it ends with. -/
def assertNoCycles (byKey : List ModuleManifest) : Except GraphFailure (Marks String) :=
  (visitAll (dependenciesAt byKey) (byKey.length + 1) ⟨∅, ∅⟩ (byKey.map ModuleManifest.key)).mapError
    (searchFailure repr)

/-! ### Declarations -/

/-- What is wrong with the surface of a module. -/
def surfaceError (manifest : ModuleDeclaration) : Option String :=
  let hasRoutes := !manifest.frontendRoutes.isEmpty
  let hasNav := !manifest.navEntries.isEmpty
  let hasHost := (given manifest.embeddingHost).isSome
  let on := "Module " ++ repr manifest.key ++ " surface=" ++ manifest.surface.value
  match manifest.surface with
  | .internal | .apiOnly =>
    if hasNav then some (on ++ " must not declare nav_entries")
    else if hasRoutes then some (on ++ " must not declare frontend_routes")
    else if hasHost then some (on ++ " must not declare embedding_host")
    else if manifest.userVisible ∧ manifest.surface = .internal then
      some ("Module " ++ repr manifest.key ++ " INTERNAL surface requires user_visible=False")
    else none
  | .embedded =>
    if ¬hasHost then some ("Module " ++ repr manifest.key ++ " EMBEDDED surface requires embedding_host")
    else if hasNav then
      some ("Module " ++ repr manifest.key ++ " EMBEDDED surface must not declare primary nav_entries")
    else none
  | .userFacing | .adminFacing =>
    if ¬hasRoutes ∧ ¬hasHost then some (on ++ " requires frontend_routes or embedding_host") else none

/-- `_assert_surface_rules` -/
def assertSurfaceRules (manifests : List ModuleDeclaration) : Except GraphFailure Unit :=
  raiseFirst (surfaceError repr) manifests

/-- `_assert_nav_routes_resolve` -/
def assertNavRoutesResolve (manifests : List ModuleDeclaration) : Except GraphFailure Unit :=
  let knownPaths := (manifests.flatMap ModuleDeclaration.frontendRoutes).map FrontendRoute.path
  raiseFirst (fun manifest ↦ manifest.navEntries.findSome? fun entry ↦
    if entry.path ∉ knownPaths then
      some ("Module " ++ repr manifest.key ++ " nav path " ++ repr entry.path ++
        " does not match any declared frontend_route.path")
    else none) manifests

/-- `_assert_router_keys` -/
def assertRouterKeys (routerKeys : Finset String) (manifests : List ModuleDeclaration) : Except GraphFailure Unit :=
  raiseFirst (fun manifest ↦
    let unknown := manifest.backendRouterKeys.toFinset \ routerKeys
    if unknown.Nonempty then
      some ("Module " ++ repr manifest.key ++ " declares unknown backend_router_keys: " ++
        ", ".intercalate unknown.sort)
    else none) manifests

/-- `_assert_page_keys` -/
def assertPageKeys (knownPageKeys : Finset String) (manifests : List ModuleDeclaration) : Except GraphFailure Unit :=
  raiseFirst (fun manifest ↦ manifest.frontendRoutes.findSome? fun route ↦
    if route.pageKey ∉ knownPageKeys then
      some ("Module " ++ repr manifest.key ++ " declares unknown page_key " ++ repr route.pageKey)
    else none) manifests

/-- What is asserted of the declarations, once there are no cycles. -/
def assertDeclarations (routerKeys knownPageKeys : Option (Finset String)) (manifests : List ModuleDeclaration) :
    Except GraphFailure Unit := do
  assertSurfaceRules repr manifests
  assertNavRoutesResolve repr manifests
  match routerKeys with
  | some routerKeys => assertRouterKeys repr routerKeys manifests
  | none => .ok ()
  match knownPageKeys with
  | some knownPageKeys => assertPageKeys repr knownPageKeys manifests
  | none => .ok ()

/-- The manifests with their keys and dependencies only. -/
def graphOf (manifests : List ModuleDeclaration) : List ModuleManifest :=
  manifests.map ModuleDeclaration.toModuleManifest

/-- `validate_manifest_graph` -/
def validateManifestGraph (routerKeys knownPageKeys : Option (Finset String)) (manifests : List ModuleDeclaration) :
    Except GraphFailure Unit := do
  let byKey ← (indexManifests [] (graphOf manifests)).mapError .raised
  checkDependencies repr byKey (graphOf manifests)
  let _ ← assertNoCycles repr byKey
  assertDeclarations repr routerKeys knownPageKeys manifests

end Validation

/-! ### The search -/

/-- A module has another among its dependencies. -/
def DependsOn (manifests : List ModuleManifest) (a b : String) : Prop :=
  ∃ manifest ∈ manifests, manifest.key = a ∧ b ∈ manifest.dependencies

section Search

variable {manifests : List ModuleManifest} (repr : String → String)
  (hdistinct : (manifests.map ModuleManifest.key).Nodup)

include hdistinct

theorem dependenciesAt_key {manifest : ModuleManifest} (h : manifest ∈ manifests) :
    dependenciesAt manifests manifest.key = some manifest.dependencies := by
  rw [dependenciesAt, find?_key hdistinct h, Option.map_some]

theorem leadsTo_iff {a b : String} : LeadsTo (dependenciesAt manifests) a b ↔ DependsOn manifests a b := by
  constructor
  · rintro ⟨targets, hnext, hmem⟩
    obtain ⟨manifest, hfound, rfl⟩ := Option.map_eq_some_iff.1 hnext
    have hkey := List.find?_some hfound
    exact ⟨manifest, List.mem_of_find?_eq_some hfound, of_decide_eq_true hkey, hmem⟩
  · rintro ⟨manifest, hmanifest, rfl, hmem⟩
    exact ⟨manifest.dependencies, dependenciesAt_key hdistinct hmanifest, hmem⟩

variable (hknown : ∀ manifest ∈ manifests, ∀ dependency ∈ manifest.dependencies,
  ∃ other ∈ manifests, other.key = dependency)

include hknown

/-- The search with any number of frames that is larger than that of the modules. -/
theorem visitAll_manifests {frames : ℕ} (hframes : manifests.length < frames) :
    (visitAll (dependenciesAt manifests) frames ⟨∅, ∅⟩ (manifests.map ModuleManifest.key) =
        .ok ⟨∅, manifestKeys manifests⟩ ∧ ¬∃ key, Relation.TransGen (DependsOn manifests) key key) ∨
      ∃ key, Relation.TransGen (DependsOn manifests) key key ∧
        visitAll (dependenciesAt manifests) frames ⟨∅, ∅⟩ (manifests.map ModuleManifest.key) =
          .error (.cycle key) := by
  have hedges : LeadsTo (dependenciesAt manifests) = DependsOn manifests :=
    funext₂ fun a b ↦ propext (leadsTo_iff hdistinct)
  have htargets : ∀ key ∈ manifestKeys manifests, ∃ targets, dependenciesAt manifests key = some targets ∧
      ∀ dependency ∈ targets, dependency ∈ manifestKeys manifests := by
    intro key hkey
    obtain ⟨manifest, hmem, rfl⟩ := mem_manifestKeys.1 hkey
    exact ⟨manifest.dependencies, dependenciesAt_key hdistinct hmem,
      fun dependency h ↦ mem_manifestKeys.2 (hknown manifest hmem dependency h)⟩
  have hcard : (manifestKeys manifests).card < frames := by
    refine lt_of_le_of_lt ?_ hframes
    exact (List.toFinset_card_le _).trans_eq (List.length_map _)
  have hspec := visitAll_spec htargets hcard fun key ↦ (List.mem_toFinset (l := manifests.map ModuleManifest.key)).symm
  rw [hedges] at hspec
  refine hspec.imp_left fun ⟨hok, hacyclic⟩ ↦ ⟨hok, ?_⟩
  rintro ⟨key, hcycle⟩
  obtain ⟨_, ⟨manifest, hmem, rfl, -⟩, -⟩ := Relation.TransGen.head'_iff.1 hcycle
  exact hacyclic manifest.key (mem_manifestKeys.2 ⟨manifest, hmem, rfl⟩) hcycle

/-- More frames make no difference. -/
theorem assertNoCycles_frames {frames : ℕ} (hframes : manifests.length < frames) :
    assertNoCycles repr manifests =
      (visitAll (dependenciesAt manifests) frames ⟨∅, ∅⟩ (manifests.map ModuleManifest.key)).mapError
        (searchFailure repr) := by
  rw [assertNoCycles, visitAll_mono (Nat.succ_le_of_lt hframes)]
  rcases visitAll_manifests hdistinct hknown (Nat.lt_succ_self _) with ⟨hok, -⟩ | ⟨key, -, herror⟩
  · rw [hok]
    exact fun h ↦ nomatch h
  · rw [herror]
    exact fun h ↦ nomatch h

/-- The search ends with every module visited, or raises the error of a cycle. -/
theorem assertNoCycles_spec :
    (assertNoCycles repr manifests = .ok ⟨∅, manifestKeys manifests⟩ ∧
        ¬∃ key, Relation.TransGen (DependsOn manifests) key key) ∨
      ∃ key, Relation.TransGen (DependsOn manifests) key key ∧
        assertNoCycles repr manifests = .error (.manifest ("Module dependency cycle involving " ++ repr key)) := by
  rcases visitAll_manifests hdistinct hknown (Nat.lt_succ_self _) with ⟨hok, hacyclic⟩ | ⟨key, hcycle, herror⟩
  · exact .inl ⟨by rw [assertNoCycles, hok]; rfl, hacyclic⟩
  · exact .inr ⟨key, hcycle, by rw [assertNoCycles, herror]; rfl⟩

end Search

theorem raiseFirst_of_forall {α : Type} {error : α → Option String} {items : List α}
    (h : ∀ item ∈ items, error item = none) : raiseFirst error items = .ok () := by
  rw [raiseFirst, List.findSome?_eq_none_iff.2 h]

section Reached

variable {manifests : List ModuleDeclaration} (repr : String → String)
  (routerKeys knownPageKeys : Option (Finset String))
  (hdistinct : ((graphOf manifests).map ModuleManifest.key).Nodup)
  (hknown : ∀ manifest ∈ graphOf manifests, ∀ dependency ∈ manifest.dependencies,
    ∃ other ∈ graphOf manifests, other.key = dependency)
  (hself : ∀ manifest ∈ graphOf manifests, manifest.key ∉ manifest.dependencies)

include hdistinct hknown hself

/-- The search is reached. -/
theorem validateManifestGraph_eq : validateManifestGraph repr routerKeys knownPageKeys manifests =
    (assertNoCycles repr (graphOf manifests)).bind fun _ ↦
      assertDeclarations repr routerKeys knownPageKeys manifests := by
  have hchecked : checkDependencies repr (graphOf manifests) (graphOf manifests) = .ok () := by
    refine raiseFirst_of_forall fun manifest hmem ↦ List.findSome?_eq_none_iff.2 fun dependency hdependency ↦ ?_
    obtain ⟨other, hother, hkey⟩ := hknown manifest hmem dependency hdependency
    rw [dependencyError, if_neg, if_neg]
    · rintro rfl
      exact hself manifest hmem hdependency
    · exact fun hall ↦ of_decide_eq_true (List.all_eq_true.1 hall other hother) hkey
  rw [validateManifestGraph, indexManifests_of_nodup hdistinct]
  dsimp only [Except.mapError, bind, Except.bind]
  rw [List.nil_append, hchecked]

/-- **The cycles that are found are those that are there.** Without a module that depends on itself, the validation
reaches the search, which raises if and only if the dependencies have a cycle, and else has visited every module. -/
theorem manifestGraph_cycles :
    (validateManifestGraph repr routerKeys knownPageKeys manifests =
        (assertNoCycles repr (graphOf manifests)).bind fun _ ↦
          assertDeclarations repr routerKeys knownPageKeys manifests) ∧
      ((∃ failure, assertNoCycles repr (graphOf manifests) = .error failure) ↔
        ∃ key, Relation.TransGen (DependsOn (graphOf manifests)) key key) ∧
      ((¬∃ key, Relation.TransGen (DependsOn (graphOf manifests)) key key) →
        assertNoCycles repr (graphOf manifests) = .ok ⟨∅, manifestKeys (graphOf manifests)⟩) := by
  refine ⟨validateManifestGraph_eq repr routerKeys knownPageKeys hdistinct hknown hself, ?_⟩
  rcases assertNoCycles_spec repr hdistinct hknown with ⟨hok, hacyclic⟩ | ⟨key, hcycle, herror⟩
  · refine ⟨iff_of_false ?_ hacyclic, fun _ ↦ hok⟩
    rintro ⟨failure, hfailure⟩
    exact nomatch hok.symm.trans hfailure
  · exact ⟨iff_of_true ⟨_, herror⟩ ⟨key, hcycle⟩, fun h ↦ absurd ⟨key, hcycle⟩ h⟩

end Reached

/-- Modules that depend on each other in a circle. -/
def circularDeclarations : List ModuleDeclaration :=
  [{ key := "chat", dependencies := ["rag"], alwaysEnabled := false, optional := true },
    { key := "rag", dependencies := ["memory"], alwaysEnabled := false, optional := true },
    { key := "memory", dependencies := ["chat"], alwaysEnabled := false, optional := true }]

theorem manifestGraph_cycles_circular :
    (validateManifestGraph id none none circularDeclarations =
        (assertNoCycles id (graphOf circularDeclarations)).bind fun _ ↦
          assertDeclarations id none none circularDeclarations) ∧
      ((∃ failure, assertNoCycles id (graphOf circularDeclarations) = .error failure) ↔
        ∃ key, Relation.TransGen (DependsOn (graphOf circularDeclarations)) key key) ∧
      ((¬∃ key, Relation.TransGen (DependsOn (graphOf circularDeclarations)) key key) →
        assertNoCycles id (graphOf circularDeclarations) =
          .ok ⟨∅, manifestKeys (graphOf circularDeclarations)⟩) :=
  manifestGraph_cycles id none none (by decide) (by decide) (by decide)

/-- A module that depends on itself. -/
def selfDependent : List ModuleDeclaration :=
  [{ key := "chat", dependencies := ["chat"], alwaysEnabled := false, optional := true }]

/-- **A module that depends on itself is refused before the search**, with an error of its own. -/
theorem validateManifestGraph_self :
    ¬∀ (repr : String → String) (routerKeys knownPageKeys : Option (Finset String))
      (manifests : List ModuleDeclaration), ((graphOf manifests).map ModuleManifest.key).Nodup →
      (∀ manifest ∈ graphOf manifests, ∀ dependency ∈ manifest.dependencies,
        ∃ other ∈ graphOf manifests, other.key = dependency) →
      validateManifestGraph repr routerKeys knownPageKeys manifests =
        (assertNoCycles repr (graphOf manifests)).bind fun _ ↦
          assertDeclarations repr routerKeys knownPageKeys manifests := by
  intro h
  have hreached := h id none none selfDependent (by decide) (by decide)
  have hrefused : validateManifestGraph id none none selfDependent =
      .error (.manifest "Module chat cannot depend on itself") := rfl
  have hsearch : (assertNoCycles id (graphOf selfDependent)).bind (fun _ ↦
      assertDeclarations id none none selfDependent) =
      .error (.manifest "Module dependency cycle involving chat") := rfl
  rw [hrefused, hsearch] at hreached
  have hmessage := ManifestFailure.manifest.inj (GraphFailure.raised.inj (Except.error.inj hreached))
  exact absurd hmessage (by decide)

end GenericApp
