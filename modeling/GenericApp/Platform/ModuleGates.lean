import GenericApp.Platform.ModuleManifests
import GenericApp.Platform.ModuleOverrides

/-!
# The gates of a module

Three answers are given to whether a module is on. `ensure_module_enabled` asks for the active modules or the enabled
ones, a feature flag for the enabled ones only, and so does the catalog. The active modules are closed under
dependencies and have the modules that are always on and those of the profile; the enabled ones are the optional
modules that the pack and its overrides switch on.

So the gates agree if and only if nothing else is active (`gatesAgree_iff`): no module is always on, the profile asks
for nothing that is not switched on, and what is switched on depends on nothing that is not.
-/

namespace GenericApp

open Py

/-! ### Capability profiles -/

/-- `CapabilityProfile`, with what the resolution of modules reads. -/
structure CapabilityProfile where
  key : String
  optionalModules : List String
  modules : List String
  extendsKey : Option String

/-- The registered manifests, the keys of `OPTIONAL_PLATFORM_MANIFESTS`, the profiles and what scaffolding has added to
them. A manifest has a key, and one that is always enabled is not optional. -/
structure ModuleRegistry where
  manifests : List ModuleManifest
  optionalPlatform : List String
  profiles : List CapabilityProfile
  profileExtraModules : List (String × List String)
  manifests_distinct : (manifests.map ModuleManifest.key).Nodup
  manifests_named : ∀ manifest ∈ manifests, manifest.key ≠ ""
  always_not_optional : ∀ manifest ∈ manifests, manifest.alwaysEnabled = true → manifest.optional = false
  profiles_distinct : (profiles.map CapabilityProfile.key).Nodup
  profiles_named : ∀ profile ∈ profiles, profile.key ≠ ""

section Resolution

variable (iteration : SetIteration) (repr : String → String) (R : ModuleRegistry)

/-- `get_capability_profile` -/
def getCapabilityProfile (key : String) : Except String CapabilityProfile :=
  match R.profiles.find? fun profile ↦ profile.key = key with
  | some profile => .ok profile
  | none =>
    .error ("Unknown capability profile " ++ repr key ++ ". Known profiles: " ++
      ", ".intercalate (R.profiles.map CapabilityProfile.key).toFinset.sort)

/-- `walk`, given more frames of the stack than there are profiles: those that are visited differ. -/
def walkProfileField (field : CapabilityProfile → List String) :
    ℕ → List String → String → Except String (List String)
  | 0, _, key => .error ("Capability profile extends cycle involving " ++ repr key)
  | frames + 1, visiting, key =>
    if visiting.contains key then .error ("Capability profile extends cycle involving " ++ repr key)
    else do
      let profile ← getCapabilityProfile repr R key
      let inherited ←
        match profile.extendsKey with
        | none => .ok []
        | some parent => walkProfileField field frames (key :: visiting) parent
      .ok (inherited ++ field profile)

/-- `optional_modules_for_profile` -/
def optionalModulesForProfile (profileKey : String) : Except String (List String) :=
  (walkProfileField repr R CapabilityProfile.optionalModules (R.profiles.length + 1) [] profileKey).map List.eraseDups

/-- `selected_modules_for_profile`. The second walk is along the same profiles. -/
def selectedModulesForProfile (profileKey : String) : Except String (List String) := do
  let base ← walkProfileField repr R CapabilityProfile.modules (R.profiles.length + 1) [] profileKey
  let extras ← walkProfileField repr R (fun profile ↦ (R.profileExtraModules.lookup profile.key).getD [])
    (R.profiles.length + 1) [] profileKey
  .ok (base ++ extras).eraseDups

/-- The loop over `module_overrides`: the optional modules, and those that the profile selects. -/
def applyOverrides : List (String × Bool) → Finset String → Finset String → Except String (Finset String × Finset String)
  | [], optional, selected => .ok (optional, selected)
  | (key, enabled) :: overrides, optional, selected =>
    if key ∉ manifestKeys R.manifests then .error ("Unknown module override key: " ++ key)
    else if R.optionalPlatform.contains key then
      applyOverrides overrides (if enabled then insert key optional else optional.erase key) selected
    else applyOverrides overrides optional (if enabled then insert key selected else selected.erase key)

/-- `resolve_capability_profile`, and of it the active modules. -/
def resolveCapabilityProfile (profileKey : String) (overrides : List (String × Bool)) :
    Except String (List String) := do
  let _ ← getCapabilityProfile repr R profileKey
  let optional ← optionalModulesForProfile repr R profileKey
  let selected ← selectedModulesForProfile repr R profileKey
  let (optional, selected) ← applyOverrides R overrides optional.toFinset selected.toFinset
  match resolveEffectiveModules iteration repr R.manifests (iteration.elements optional)
    (iteration.elements selected) true with
  | .ok active => .ok active.sort
  | .error (.manifest message) => .error message
  -- no look-up fails, since the keys have been checked
  | .error (.key key) => .error key

/-- `MODULE_CATALOG` and `MODULE_PACKS`. A pack whose modules cannot be resolved fails the import; here it fails where
it is loaded. -/
def ModuleRegistry.catalog : PlatformCatalog where
  modules := (R.manifests.filter ModuleManifest.optional).map ModuleManifest.key
  packs := R.profiles.map fun profile ↦
    (profile.key, (optionalModulesForProfile repr R profile.key).toOption.getD [])
  manifests := R.manifests.map ModuleManifest.key
  modules_nodup := R.manifests_distinct.sublist (List.filter_sublist.map _)
  modules_known _ hkey := (List.filter_sublist.map _).subset hkey
  packs_named pack hpack := by
    obtain ⟨profile, hprofile, rfl⟩ := List.mem_map.1 hpack
    exact R.profiles_named profile hprofile

end Resolution

/-! ### Gates -/

/-- `ensure_module_enabled` -/
def ensureModuleEnabled (config : PlatformConfig) (moduleKey : String) : Except PlatformError Unit :=
  let active := config.activeModules.toFinset ∪ config.enabledModules.toFinset
  if moduleKey ∉ active then .error (.http 404 ("Module `" ++ moduleKey ++ "` is not enabled")) else .ok ()

/-- `FeatureFlag`, with what decides whether it is effective. -/
structure FeatureFlag where
  key : String
  moduleKey : Option String
  isEnabled : Bool
  rolloutPercentage : ℤ

/-- `_is_flag_effective`. The number is that of the first eight digits of the digest. -/
def isFlagEffective (digest : String → ℕ) (flag : FeatureFlag) (userId : String) (enabledModules : Finset String) :
    Bool :=
  if !flag.isEnabled then false
  else if (given flag.moduleKey).any fun moduleKey ↦ moduleKey ∉ enabledModules then false
  else if 100 ≤ flag.rolloutPercentage then true
  else if flag.rolloutPercentage ≤ 0 then false
  else
    let bucket := digest (flag.key ++ ":" ++ userId) % 100
    (bucket : ℤ) < flag.rolloutPercentage

/-- **The gates agree**: a module is refused where a flag of it is, the catalog says what is refused, a module that is
switched off is refused, and a flag stays effective when it is rolled out further. -/
structure GatesAgree (R : ModuleRegistry) (digest : String → ℕ) (config : PlatformConfig) : Prop where
  flags : ∀ manifest ∈ R.manifests, ∀ (flag : FeatureFlag) userId, flag.moduleKey = some manifest.key →
    flag.isEnabled = true → flag.rolloutPercentage = 100 →
      ((∃ e, ensureModuleEnabled config manifest.key = .error e) ↔
        isFlagEffective digest flag userId config.enabledModules.toFinset = false)
  catalog : ∀ key enabled, (key, enabled) ∈ config.moduleCatalog →
    (enabled = true ↔ ensureModuleEnabled config key = .ok ())
  overridden : ∀ key, (key, false) ∈ config.moduleOverrides → ∃ e, ensureModuleEnabled config key = .error e
  monotone : ∀ (flag : FeatureFlag) userId enabledModules further, flag.rolloutPercentage ≤ further →
    isFlagEffective digest flag userId enabledModules = true →
      isFlagEffective digest { flag with rolloutPercentage := further } userId enabledModules = true

/-! ### What is switched on -/

section Switches

variable (repr : String → String) (R : ModuleRegistry) (D : PlatformDefaults) (T : AppSettings)

/-- The row of an optional module says yes, or there is none and the pack has it. -/
def SwitchedOn (key : String) : Prop :=
  key ∈ (R.catalog repr).modules ∧
    match settingMap T (settingModuleOverride key) with
    | some raw => parseBool raw = true
    | none => ∃ modules, optionalModulesForProfile repr R (storedPack (R.catalog repr) D T) = .ok modules ∧ key ∈ modules

/-- The row of an optional module says no. -/
def SwitchedOff (key : String) : Prop := (key, false) ∈ explicitOverrides (R.catalog repr) T

/-- **What is asked for is switched on.** No module is always enabled; what the profile has, and no row takes out of
it, is switched on; and so is what that depends on. -/
structure OnlySwitchedOn : Prop where
  always : ∀ manifest ∈ R.manifests, manifest.alwaysEnabled = false
  optional : ∀ modules, optionalModulesForProfile repr R (storedPack (R.catalog repr) D T) = .ok modules →
    ∀ key ∈ modules, SwitchedOn repr R D T key ∨ (key ∈ R.optionalPlatform ∧ SwitchedOff repr R T key)
  selected : ∀ modules, selectedModulesForProfile repr R (storedPack (R.catalog repr) D T) = .ok modules →
    ∀ key ∈ modules, SwitchedOn repr R D T key ∨ (key ∉ R.optionalPlatform ∧ SwitchedOff repr R T key)
  dependencies : ∀ manifest ∈ R.manifests, SwitchedOn repr R D T manifest.key →
    ∀ dependency ∈ manifest.dependencies, SwitchedOn repr R D T dependency

end Switches

section Agreement

variable {iteration : SetIteration} {repr : String → String} {R : ModuleRegistry} {D : PlatformDefaults}
  {T : AppSettings} {digest : String → ℕ} {config : PlatformConfig}

/-- Each override goes to the set that it is about. -/
theorem applyOverrides_eq (overrides : List (String × Bool)) (optional selected : Finset String)
    (hknown : ∀ e ∈ overrides, e.1 ∈ manifestKeys R.manifests) :
    applyOverrides R overrides optional selected =
      .ok ((overrides.filter fun e ↦ R.optionalPlatform.contains e.1).foldl
          (fun enabled e ↦ if e.2 then insert e.1 enabled else enabled.erase e.1) optional,
        (overrides.filter fun e ↦ !R.optionalPlatform.contains e.1).foldl
          (fun enabled e ↦ if e.2 then insert e.1 enabled else enabled.erase e.1) selected) := by
  induction overrides generalizing optional selected with
  | nil => rfl
  | cons e overrides ih =>
    obtain ⟨key, enabled⟩ := e
    obtain ⟨hkey, hothers⟩ := List.forall_mem_cons.1 hknown
    rw [applyOverrides, if_neg (not_not.2 hkey)]
    split
    · next hplatform =>
      rw [ih _ _ hothers]
      simp only [List.filter_cons, hplatform, Bool.not_true, Bool.false_eq_true, if_true, if_false, List.foldl_cons]
    · next hplatform =>
      rw [ih _ _ hothers]
      rw [Bool.not_eq_true] at hplatform
      simp only [List.filter_cons, hplatform, Bool.not_false, Bool.false_eq_true, if_true, if_false, List.foldl_cons]

theorem explicitOverrides_unique {C : PlatformCatalog} (key : String) (b b' : Bool)
    (hb : (key, b) ∈ explicitOverrides C T) (hb' : (key, b') ∈ explicitOverrides C T) : b = b' := by
  obtain ⟨-, raw, hraw, rfl⟩ := mem_explicitOverrides.1 hb
  obtain ⟨-, raw', hraw', rfl⟩ := mem_explicitOverrides.1 hb'
  rw [Option.some.inj (hraw.symm.trans hraw')]

theorem lookup_packs {name : String} {packModules : List String}
    (h : (R.catalog repr).pack name = some packModules) :
    packModules = (optionalModulesForProfile repr R name).toOption.getD [] := by
  obtain ⟨front, back, hpacks, -⟩ := List.lookup_eq_some_iff.1 h
  have hmem : (name, packModules) ∈ (R.catalog repr).packs := hpacks ▸ List.mem_append_right _ List.mem_cons_self
  obtain ⟨profile, -, heq⟩ := List.mem_map.1 hmem
  obtain ⟨rfl, rfl⟩ := Prod.mk.inj heq
  rfl

/-- What a load has asked for, and what it got. -/
structure Loaded (iteration : SetIteration) (repr : String → String) (R : ModuleRegistry) (D : PlatformDefaults)
    (T : AppSettings) (config : PlatformConfig) (optional selected : List String) (active : Finset String) : Prop where
  optional_eq : optionalModulesForProfile repr R (storedPack (R.catalog repr) D T) = .ok optional
  selected_eq : selectedModulesForProfile repr R (storedPack (R.catalog repr) D T) = .ok selected
  resolved : ∃ chosen others, applyOverrides R (explicitOverrides (R.catalog repr) T) optional.toFinset
      selected.toFinset = .ok (chosen, others) ∧
    resolveEffectiveModules iteration repr R.manifests (iteration.elements chosen) (iteration.elements others) true =
      .ok active
  active_eq : config.activeModules = active.sort
  enabled_eq : config.enabledModules = resolveEnabledModules (R.catalog repr) optional
    (explicitOverrides (R.catalog repr) T)
  catalog_eq : config.moduleCatalog = (R.catalog repr).modules.map fun key ↦ (key, config.enabledModules.contains key)
  overrides_eq : config.moduleOverrides = explicitOverrides (R.catalog repr) T

theorem loaded_of_load
    (h : loadPlatformConfig (R.catalog repr) D (resolveCapabilityProfile iteration repr R) T = .ok config) :
    ∃ optional selected active, Loaded iteration repr R D T config optional selected active := by
  unfold loadPlatformConfig at h
  dsimp only at h
  split at h
  · cases h
  next packModules hpack =>
  split at h
  · cases h
  next activeModules hresolve =>
  obtain rfl := Except.ok.inj h
  unfold resolveCapabilityProfile at hresolve
  rcases hprofile : getCapabilityProfile repr R (storedPack (R.catalog repr) D T) with e | profile
  · rw [hprofile] at hresolve
    cases hresolve
  rcases hoptional : optionalModulesForProfile repr R (storedPack (R.catalog repr) D T) with e | optional
  · rw [hprofile, hoptional] at hresolve
    cases hresolve
  rcases hselected : selectedModulesForProfile repr R (storedPack (R.catalog repr) D T) with e | selected
  · rw [hprofile, hoptional, hselected] at hresolve
    cases hresolve
  rcases happly : applyOverrides R (explicitOverrides (R.catalog repr) T) optional.toFinset selected.toFinset with
    e | ⟨chosen, others⟩
  · rw [hprofile, hoptional, hselected] at hresolve
    simp only [bind, Except.bind, happly] at hresolve
    cases hresolve
  rw [hprofile, hoptional, hselected] at hresolve
  simp only [bind, Except.bind, happly] at hresolve
  split at hresolve
  · next active hactive =>
    obtain rfl : packModules = optional := by rw [lookup_packs hpack, hoptional]; rfl
    exact ⟨packModules, selected, active, hoptional, hselected, ⟨chosen, others, happly, hactive⟩,
      (Except.ok.inj hresolve).symm, rfl, rfl, rfl⟩
  · cases hresolve
  · cases hresolve

theorem mem_overridden {C : PlatformCatalog} (p : String → Bool) (S : Finset String) (key : String) :
    key ∈ ((explicitOverrides C T).filter fun e ↦ p e.1).foldl
        (fun enabled e ↦ if e.2 then insert e.1 enabled else enabled.erase e.1) S ↔
      (p key = true ∧ (key, true) ∈ explicitOverrides C T) ∨
        (key ∈ S ∧ ¬(p key = true ∧ (key, false) ∈ explicitOverrides C T)) := by
  rw [mem_foldl_overrides _ (fun b b' hb hb' ↦
    explicitOverrides_unique key b b' (List.mem_of_mem_filter hb) (List.mem_of_mem_filter hb')),
    List.mem_filter, List.mem_filter, and_comm (b := p key = true), and_comm (b := p key = true)]

theorem switchedOn_of_row {key : String} (h : (key, true) ∈ explicitOverrides (R.catalog repr) T) :
    SwitchedOn repr R D T key := by
  obtain ⟨hkey, raw, hraw, hparse⟩ := mem_explicitOverrides.1 h
  refine ⟨hkey, ?_⟩
  rw [hraw]
  exact hparse

namespace Loaded

variable {optional selected : List String} {active : Finset String}
  (h : Loaded iteration repr R D T config optional selected active)

include h

theorem mem_enabled {key : String} : key ∈ config.enabledModules ↔ SwitchedOn repr R D T key := by
  rw [h.enabled_eq]
  by_cases hkey : key ∈ (R.catalog repr).modules
  · rw [enabled_iff hkey, SwitchedOn, and_iff_right hkey]
    rcases settingMap T (settingModuleOverride key) with - | raw
    · exact ⟨fun hmem ↦ ⟨optional, h.optional_eq, hmem⟩, fun ⟨_, heq, hmem⟩ ↦
        Except.ok.inj (heq.symm.trans h.optional_eq) ▸ hmem⟩
    · exact Iff.rfl
  · exact iff_of_false (fun hmem ↦ hkey (List.mem_filter.1 hmem).1) fun hon ↦ hkey hon.1

/-- What the resolution was asked for. -/
theorem requested : ∃ chosen others,
    resolveEffectiveModules iteration repr R.manifests (iteration.elements chosen) (iteration.elements others) true =
      .ok active ∧
    (∀ key, key ∈ chosen ↔ (key ∈ R.optionalPlatform ∧ (key, true) ∈ explicitOverrides (R.catalog repr) T) ∨
      (key ∈ optional ∧ ¬(key ∈ R.optionalPlatform ∧ SwitchedOff repr R T key))) ∧
    ∀ key, key ∈ others ↔ (key ∉ R.optionalPlatform ∧ (key, true) ∈ explicitOverrides (R.catalog repr) T) ∨
      (key ∈ selected ∧ ¬(key ∉ R.optionalPlatform ∧ SwitchedOff repr R T key)) := by
  obtain ⟨chosen, others, happly, hresolve⟩ := h.resolved
  rw [applyOverrides_eq _ _ _ fun e he ↦ List.mem_toFinset.2 ((R.catalog repr).modules_known e.1
    (mem_explicitOverrides.1 he).1)] at happly
  obtain ⟨rfl, rfl⟩ := Prod.mk.inj (Except.ok.inj happly)
  refine ⟨_, _, hresolve, fun key ↦ ?_, fun key ↦ ?_⟩
  · rw [mem_overridden R.optionalPlatform.contains, List.mem_toFinset, List.contains_iff_mem]
    exact Iff.rfl
  · rw [mem_overridden fun key ↦ !R.optionalPlatform.contains key, List.mem_toFinset, Bool.not_eq_true',
      ← Bool.not_eq_true, List.contains_iff_mem]
    exact Iff.rfl

/-- **Only what is switched on is active** if and only if only that is asked for. -/
theorem active_iff : (∀ manifest ∈ R.manifests, manifest.key ∈ active → SwitchedOn repr R D T manifest.key) ↔
    OnlySwitchedOn repr R D T := by
  obtain ⟨chosen, others, hresolve, hchosen, hothers⟩ := h.requested
  obtain ⟨hrefused, hleast⟩ := resolve_spec iteration repr R.manifests_distinct (iteration.elements chosen)
    (iteration.elements others)
  have hresolvable : ¬Unresolvable R.manifests (iteration.elements chosen) (iteration.elements others) :=
    fun hbad ↦ by
      obtain ⟨message, herror⟩ := hrefused.2 hbad
      exact nomatch herror.symm.trans hresolve
  obtain ⟨active', hok, hleast, -⟩ := hleast hresolvable
  obtain rfl := Except.ok.inj (hresolve.symm.trans hok)
  obtain ⟨⟨halways, hasked, hclosed⟩, hsmallest⟩ := hleast
  have hmem : ∀ key, key ∈ iteration.elements chosen ++ iteration.elements others ↔ key ∈ chosen ∨ key ∈ others :=
    fun key ↦ by rw [List.mem_append, iteration.mem, iteration.mem]
  have hknown : ∀ key, key ∈ chosen ∨ key ∈ others → ∃ manifest ∈ R.manifests, manifest.key = key := fun key hkey ↦ by
    by_contra hnone
    push Not at hnone
    exact hresolvable (.inl ⟨key, (hmem key).2 hkey, hnone⟩)
  have hrequested : ∀ key, SwitchedOn repr R D T key → key ∈ chosen ∨ key ∈ others := by
    rintro key ⟨hkey, hrow⟩
    rcases hraw : settingMap T (settingModuleOverride key) with - | raw
    · rw [hraw] at hrow
      obtain ⟨modules, heq, hin⟩ := hrow
      obtain rfl := Except.ok.inj (heq.symm.trans h.optional_eq)
      refine .inl ((hchosen key).2 (.inr ⟨hin, fun hoff ↦ ?_⟩))
      obtain ⟨-, raw, hrow, -⟩ := mem_explicitOverrides.1 hoff.2
      exact nomatch hraw.symm.trans hrow
    · rw [hraw] at hrow
      have hon : (key, true) ∈ explicitOverrides (R.catalog repr) T := mem_explicitOverrides.2 ⟨hkey, raw, hraw, hrow⟩
      by_cases hplatform : key ∈ R.optionalPlatform
      · exact .inl ((hchosen key).2 (.inl ⟨hplatform, hon⟩))
      · exact .inr ((hothers key).2 (.inl ⟨hplatform, hon⟩))
  constructor
  · intro hall
    have hon : ∀ key, key ∈ chosen ∨ key ∈ others → SwitchedOn repr R D T key := fun key hkey ↦ by
      obtain ⟨manifest, hin, rfl⟩ := hknown key hkey
      exact hall manifest hin (hasked _ ((hmem _).2 hkey))
    refine ⟨fun manifest hin ↦ ?_, fun modules heq key hkey ↦ ?_, fun modules heq key hkey ↦ ?_,
      fun manifest hin hswitched dependency hdependency ↦ ?_⟩
    · by_contra htrue
      rw [Bool.not_eq_false] at htrue
      obtain ⟨other, hother, heq⟩ := List.mem_map.1 (hall manifest hin (halways manifest hin htrue)).1
      obtain ⟨hother, hoptional⟩ := List.mem_filter.1 hother
      obtain rfl := List.inj_on_of_nodup_map R.manifests_distinct hother hin heq
      exact Bool.noConfusion ((R.always_not_optional other hother htrue).symm.trans hoptional)
    · obtain rfl := Except.ok.inj (heq.symm.trans h.optional_eq)
      by_cases hoff : key ∈ R.optionalPlatform ∧ SwitchedOff repr R T key
      · exact .inr hoff
      · exact .inl (hon key (.inl ((hchosen key).2 (.inr ⟨hkey, hoff⟩))))
    · obtain rfl := Except.ok.inj (heq.symm.trans h.selected_eq)
      by_cases hoff : key ∉ R.optionalPlatform ∧ SwitchedOff repr R T key
      · exact .inr hoff
      · exact .inl (hon key (.inr ((hothers key).2 (.inr ⟨hkey, hoff⟩))))
    · have hseed := (hmem _).2 (hrequested _ hswitched)
      have hin' := hclosed manifest hin (hasked _ hseed) dependency hdependency
      by_contra hnot
      refine hresolvable (.inr (.inr ⟨manifest, hin, ⟨_, mem_seedModules.2 (.inr hseed), .refl⟩, dependency,
        hdependency, fun other hother heq ↦ hnot ?_⟩))
      rw [← heq] at hin' ⊢
      exact hall other hother hin'
  · intro honly manifest hin hactive
    refine hsmallest (a := {key | SwitchedOn repr R D T key}) ⟨fun other hother htrue ↦ ?_, fun key hkey ↦ ?_,
      honly.dependencies⟩ hactive
    · exact Bool.noConfusion ((honly.always other hother).symm.trans htrue)
    · rcases (hmem key).1 hkey with hkey | hkey
      · rcases (hchosen key).1 hkey with ⟨-, hon⟩ | ⟨hin, hkept⟩
        · exact switchedOn_of_row hon
        · exact (honly.optional _ h.optional_eq key hin).resolve_right hkept
      · rcases (hothers key).1 hkey with ⟨-, hon⟩ | ⟨hin, hkept⟩
        · exact switchedOn_of_row hon
        · exact (honly.selected _ h.selected_eq key hin).resolve_right hkept

end Loaded

theorem ensure_ok_iff {key : String} : ensureModuleEnabled config key = .ok () ↔
    key ∈ config.activeModules ∨ key ∈ config.enabledModules := by
  rw [ensureModuleEnabled, ← List.mem_toFinset, ← List.mem_toFinset (l := config.enabledModules), ← Finset.mem_union]
  split
  · next hout => exact iff_of_false nofun hout
  · next hin => exact iff_of_true rfl (not_not.1 hin)

theorem ensure_error_iff {key : String} : (∃ e, ensureModuleEnabled config key = .error e) ↔
    ¬(key ∈ config.activeModules ∨ key ∈ config.enabledModules) := by
  rw [← ensure_ok_iff]
  rcases ensureModuleEnabled config key with e | ⟨⟩
  · exact iff_of_true ⟨e, rfl⟩ nofun
  · exact iff_of_false nofun (not_not.2 rfl)

/-- A flag that is rolled out to everyone is the gate of its module. -/
theorem isFlagEffective_eq_false_iff {flag : FeatureFlag} {userId key : String} {enabledModules : Finset String}
    (hkey : flag.moduleKey = some key) (hne : key ≠ "") (hon : flag.isEnabled = true)
    (hall : flag.rolloutPercentage = 100) :
    isFlagEffective digest flag userId enabledModules = false ↔ key ∉ enabledModules := by
  have hgiven : given flag.moduleKey = some key := given_eq_some_iff.2 ⟨hkey, hne⟩
  rw [isFlagEffective, hgiven, hon, hall, Option.any_some]
  by_cases hmem : key ∈ enabledModules
  · simp [hmem]
  · simp [hmem]

/-- **A flag stays effective when it is rolled out further.** -/
theorem isFlagEffective_mono {flag : FeatureFlag} {userId : String} {enabledModules : Finset String} {further : ℤ}
    (hle : flag.rolloutPercentage ≤ further) (h : isFlagEffective digest flag userId enabledModules = true) :
    isFlagEffective digest { flag with rolloutPercentage := further } userId enabledModules = true := by
  unfold isFlagEffective at h ⊢
  dsimp only at h ⊢
  split_ifs at h with hoff hmodule hall hnone
  · rw [if_neg hoff, if_neg hmodule, if_pos (hall.trans hle)]
  · have hbucket := of_decide_eq_true h
    rw [if_neg hoff, if_neg hmodule]
    split_ifs with hall' hnone'
    · rfl
    · exact absurd (hle.trans hnone') hnone
    · exact decide_eq_true (hbucket.trans_le hle)

theorem mem_activeModules {optional selected : List String} {active : Finset String}
    (h : Loaded iteration repr R D T config optional selected active) {key : String} :
    key ∈ config.activeModules ↔ key ∈ active := by
  rw [h.active_eq, Finset.mem_sort]

/-- Of a module that is on and not switched on, a flag is refused. -/
theorem onlySwitchedOn_of_gatesAgree
    (h : loadPlatformConfig (R.catalog repr) D (resolveCapabilityProfile iteration repr R) T = .ok config)
    (hagree : GatesAgree R digest config) : OnlySwitchedOn repr R D T := by
  obtain ⟨optional, selected, active, hloaded⟩ := loaded_of_load h
  refine hloaded.active_iff.1 fun manifest hmem hin ↦ ?_
  by_contra hoff
  rw [← hloaded.mem_enabled, ← List.mem_toFinset] at hoff
  let flag : FeatureFlag := ⟨"flag", some manifest.key, true, 100⟩
  have hrefused : isFlagEffective digest flag "" config.enabledModules.toFinset = false :=
    (isFlagEffective_eq_false_iff rfl (R.manifests_named manifest hmem) rfl rfl).2 hoff
  have hraised := (hagree.flags manifest hmem flag "" rfl rfl rfl).2 hrefused
  exact ensure_error_iff.1 hraised (.inl ((mem_activeModules hloaded).2 hin))

/-- **The gates agree** if and only if only what is switched on is active. -/
theorem gatesAgree_iff
    (h : loadPlatformConfig (R.catalog repr) D (resolveCapabilityProfile iteration repr R) T = .ok config) :
    GatesAgree R digest config ↔ OnlySwitchedOn repr R D T := by
  refine ⟨onlySwitchedOn_of_gatesAgree h, fun honly ↦ ?_⟩
  obtain ⟨optional, selected, active, hloaded⟩ := loaded_of_load h
  have hopen : ∀ key ∈ R.manifests.map ModuleManifest.key,
      (key ∈ config.activeModules ∨ key ∈ config.enabledModules ↔ key ∈ config.enabledModules) := fun key hkey ↦ by
    obtain ⟨manifest, hmem, rfl⟩ := List.mem_map.1 hkey
    exact or_iff_right_of_imp fun hin ↦ hloaded.mem_enabled.2
      (hloaded.active_iff.2 honly manifest hmem ((mem_activeModules hloaded).1 hin))
  refine ⟨fun manifest hmem flag userId hkey hon hall ↦ ?_, fun key enabled hentry ↦ ?_, fun key hoff ↦ ?_,
    fun flag userId enabledModules further ↦ isFlagEffective_mono⟩
  · rw [ensure_error_iff, isFlagEffective_eq_false_iff hkey (R.manifests_named manifest hmem) hon hall,
      List.mem_toFinset, hopen _ (List.mem_map_of_mem hmem)]
  · rw [hloaded.catalog_eq] at hentry
    obtain ⟨_, hin, heq⟩ := List.mem_map.1 hentry
    obtain ⟨rfl, rfl⟩ := Prod.mk.inj heq
    rw [ensure_ok_iff, hopen _ ((R.catalog repr).modules_known _ hin), List.contains_iff_mem]
  · rw [hloaded.overrides_eq] at hoff
    obtain ⟨hin, raw, hraw, hparse⟩ := mem_explicitOverrides.1 hoff
    rw [ensure_error_iff, hopen _ ((R.catalog repr).modules_known _ hin), hloaded.mem_enabled]
    rintro ⟨-, hrow⟩
    rw [hraw] at hrow
    exact Bool.noConfusion (hparse.symm.trans hrow)

end Agreement

/-! ### A module that is always on -/

/-- Feature flags, and the settings that they depend on. -/
def settingsManifests (always : Bool) : List ModuleManifest :=
  [⟨"settings", [], always, !always⟩, ⟨"feature_flags", ["settings"], false, true⟩]

/-- One profile, which has both. -/
def settingsRegistry (always : Bool) : ModuleRegistry where
  manifests := settingsManifests always
  optionalPlatform := []
  profiles := [⟨"core", ["settings", "feature_flags"], [], none⟩]
  profileExtraModules := []
  manifests_distinct := by cases always <;> decide
  manifests_named := by cases always <;> decide
  always_not_optional := by cases always <;> decide
  profiles_distinct := by decide
  profiles_named := by decide

def coreDefaults : PlatformDefaults := { PlatformDefaults.shipped with platformDefaultModulePack := "core" }

def noSettings : AppSettings where
  rows := []
  compat := List.Pairwise.nil

/-- Both modules are known and may be asked for, and so is what they depend on. -/
theorem settings_resolvable (always : Bool) (enabledOptional enabledSelected : List String)
    (hasked : ∀ key ∈ enabledOptional ++ enabledSelected, key ∈ ["settings", "feature_flags"]) :
    ¬Unresolvable (settingsManifests always) enabledOptional enabledSelected := by
  rintro (⟨key, hkey, hunknown⟩ | ⟨manifest, hmem, -, hoptional, hon⟩ | ⟨manifest, hmem, -, dependency, hdep, hunknown⟩)
  · obtain ⟨manifest, hmem, rfl⟩ := List.mem_map.1 (show key ∈ (settingsManifests always).map ModuleManifest.key from
      hasked key hkey)
    exact hunknown manifest hmem rfl
  · revert hoptional hon
    rcases List.mem_pair.1 hmem with rfl | rfl <;> cases always <;> simp
  · rcases List.mem_pair.1 hmem with rfl | rfl
    · exact absurd hdep List.not_mem_nil
    · exact hunknown _ List.mem_cons_self (List.mem_singleton.1 hdep).symm

theorem settings_load (always : Bool) : ∃ config, loadPlatformConfig ((settingsRegistry always).catalog id)
    coreDefaults (resolveCapabilityProfile sortedIteration id (settingsRegistry always)) noSettings = .ok config := by
  obtain ⟨active, hactive, -⟩ := (resolve_spec sortedIteration id (settingsRegistry always).manifests_distinct
    (sortedIteration.elements ["settings", "feature_flags"].toFinset) (sortedIteration.elements [].toFinset)).2
    (settings_resolvable always _ _ fun key hkey ↦ by simpa [sortedIteration] using hkey)
  have hoptional : optionalModulesForProfile id (settingsRegistry always) "core" = .ok ["settings", "feature_flags"] := by
    cases always <;> decide
  have hselected : selectedModulesForProfile id (settingsRegistry always) "core" = .ok [] := by
    cases always <;> decide
  have hoverrides : explicitOverrides ((settingsRegistry always).catalog id) noSettings = [] := by
    cases always <;> rfl
  have hresolve : resolveCapabilityProfile sortedIteration id (settingsRegistry always) "core" [] =
      .ok active.sort := by
    rw [resolveCapabilityProfile, hoptional, hselected]
    simp only [bind, Except.bind, applyOverrides, hactive]
    cases always <;> rfl
  have hpack : storedPack ((settingsRegistry always).catalog id) coreDefaults noSettings = "core" := by
    cases always <;> rfl
  unfold loadPlatformConfig
  dsimp only
  rw [hpack, hoverrides, hresolve]
  cases always <;> exact ⟨_, rfl⟩

/-- Both are optional: the gates agree. -/
theorem gatesAgree_iff_settings :
    ∃ config, loadPlatformConfig ((settingsRegistry false).catalog id) coreDefaults
        (resolveCapabilityProfile sortedIteration id (settingsRegistry false)) noSettings = .ok config ∧
      GatesAgree (settingsRegistry false) String.length config := by
  obtain ⟨config, h⟩ := settings_load false
  refine ⟨config, h, (gatesAgree_iff h).2 ?_⟩
  have hon : ∀ key ∈ ["settings", "feature_flags"],
      SwitchedOn id (settingsRegistry false) coreDefaults noSettings key := fun key hkey ↦
    ⟨hkey, ["settings", "feature_flags"], by decide, hkey⟩
  refine ⟨by decide, fun modules heq key hkey ↦ .inl (hon key ?_), fun modules heq key hkey ↦ ?_, ?_⟩
  · obtain rfl : ["settings", "feature_flags"] = modules := Except.ok.inj heq
    exact hkey
  · obtain rfl : [] = modules := Except.ok.inj heq
    exact absurd hkey List.not_mem_nil
  · intro manifest hmem _ dependency hdependency
    rcases List.mem_pair.1 hmem with rfl | rfl
    · exact absurd hdependency List.not_mem_nil
    · exact hon _ (List.mem_singleton.1 hdependency ▸ List.mem_cons_self)

/-- **The gates do not agree** about settings that are always on. -/
theorem settings_disagree :
    ∃ config, loadPlatformConfig ((settingsRegistry true).catalog id) coreDefaults
        (resolveCapabilityProfile sortedIteration id (settingsRegistry true)) noSettings = .ok config ∧
      ∀ digest, ¬GatesAgree (settingsRegistry true) digest config := by
  obtain ⟨config, h⟩ := settings_load true
  refine ⟨config, h, fun digest hagree ↦ ?_⟩
  exact Bool.noConfusion ((onlySwitchedOn_of_gatesAgree h hagree).always _ List.mem_cons_self)

end GenericApp
