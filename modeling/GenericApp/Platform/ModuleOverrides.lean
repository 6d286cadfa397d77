import GenericApp.Platform.ConfigService

/-!
# Whether module overrides mean what they say

An override is stored only where it differs from the pack, so that without a row the pack decides. Which
pack, is where it goes wrong: the row is left out because of the pack of the cached configuration, and read
without it under the pack that is stored. The two are one when the request names a pack, unless it names the
empty string, which is no pack to `or` and one to `is not None`.

* `enabled_iff`: what is enabled after a load, module by module.
* `overrides_mean_what_they_say`: a call that succeeds does what it is asked if and only if the pack that is
  requested is not the empty string, and, where none is requested, the cached pack and the stored one agree
  about each module whose override says what the cached pack says.
* `overrides_are_dropped`: a module that is to be enabled and is not.
-/

namespace GenericApp

open Py

/-! ### Reading the rows -/

/-- The settings of the platform are the rows. -/
theorem settingMap_eq {T : AppSettings} {key : String} (h : "platform.".toList <+: key.toList) :
    settingMap T key = (T.getByKey key).map AppSetting.value := by
  rw [settingMap, AppSettings.listByPrefix, List.find?_filter, AppSettings.getByKey, Table.find]
  congr 2
  funext row
  refine decide_eq_decide.2 ⟨fun hfound ↦ of_decide_eq_true hfound.2, fun hkey ↦ ⟨?_, decide_eq_true hkey⟩⟩
  have hkey : row.key = key := hkey
  rw [hkey]
  exact List.isPrefixOf_iff_prefix.2 h

theorem toList_settingModuleOverride (k : String) :
    (settingModuleOverride k).toList = "platform.module_override.".toList ++ k.toList :=
  String.toList_append

theorem settingMap_override (T : AppSettings) (k : String) :
    settingMap T (settingModuleOverride k) =
      (T.getByKey (settingModuleOverride k)).map AppSetting.value := by
  refine settingMap_eq ?_
  rw [toList_settingModuleOverride]
  exact List.IsPrefix.trans (by decide) (List.prefix_append _ _)

theorem settingModuleOverride_injective {k k' : String}
    (h : settingModuleOverride k = settingModuleOverride k') : k = k' :=
  (String.append_right_inj _).1 h

/-- A key that does not begin like that of an override is none. -/
theorem settingModuleOverride_ne {key : String} (k : String)
    (h : ¬"platform.module_override.".toList <+: key.toList) : settingModuleOverride k ≠ key := by
  rintro rfl
  rw [toList_settingModuleOverride] at h
  exact h (List.prefix_append _ _)

section Loading

variable {C : PlatformCatalog} {T : AppSettings}

theorem mem_explicitOverrides {k : String} {b : Bool} :
    (k, b) ∈ explicitOverrides C T ↔
      k ∈ C.modules ∧ ∃ raw, settingMap T (settingModuleOverride k) = some raw ∧ parseBool raw = b := by
  rw [explicitOverrides, List.mem_filterMap]
  constructor
  · rintro ⟨j, hj, hmap⟩
    obtain ⟨raw, hraw, heq⟩ := Option.map_eq_some_iff.1 hmap
    obtain ⟨rfl, rfl⟩ := Prod.mk.inj heq
    exact ⟨hj, raw, hraw, rfl⟩
  · rintro ⟨hk, raw, hraw, rfl⟩
    exact ⟨k, hk, by rw [hraw, Option.map_some]⟩

/-- One after the other, overrides with different keys leave what each of them says. -/
theorem mem_foldl_overrides {k : String} (overrides : List (String × Bool))
    (hunique : ∀ b b', (k, b) ∈ overrides → (k, b') ∈ overrides → b = b') (enabled : Finset String) :
    k ∈ overrides.foldl (fun enabled e ↦ if e.2 then insert e.1 enabled else enabled.erase e.1) enabled ↔
      (k, true) ∈ overrides ∨ (k ∈ enabled ∧ (k, false) ∉ overrides) := by
  induction overrides generalizing enabled with
  | nil => simp
  | cons e overrides ih =>
    obtain ⟨j, b⟩ := e
    rw [List.foldl_cons, ih fun b b' hb hb' ↦
      hunique b b' (List.mem_cons_of_mem _ hb) (List.mem_cons_of_mem _ hb')]
    rcases eq_or_ne k j with rfl | hne
    · have hrest : ∀ b', (k, b') ∈ overrides → b' = b := fun b' hb' ↦
        hunique b' b (List.mem_cons_of_mem _ hb') List.mem_cons_self
      cases b with
      | false =>
        have htrue : (k, true) ∉ overrides := fun hmem ↦ nomatch hrest true hmem
        simp [htrue]
      | true =>
        have hfalse : (k, false) ∉ overrides := fun hmem ↦ nomatch hrest false hmem
        simp [hfalse]
    · cases b with
      | false => simp [hne]
      | true => simp [hne]

/-- **What is enabled.** The row of a module decides if there is one, and else the pack. -/
theorem enabled_iff {packModules : List String} {k : String} (hk : k ∈ C.modules) :
    k ∈ resolveEnabledModules C packModules (explicitOverrides C T) ↔
      match settingMap T (settingModuleOverride k) with
      | some raw => parseBool raw = true
      | none => k ∈ packModules := by
  have hunique : ∀ b b', (k, b) ∈ explicitOverrides C T → (k, b') ∈ explicitOverrides C T → b = b' := by
    intro b b' hb hb'
    obtain ⟨-, raw, hraw, rfl⟩ := mem_explicitOverrides.1 hb
    obtain ⟨-, raw', hraw', rfl⟩ := mem_explicitOverrides.1 hb'
    rw [Option.some.inj (hraw.symm.trans hraw')]
  have hmem := mem_foldl_overrides _ hunique packModules.toFinset
  rw [resolveEnabledModules, List.mem_filter, decide_eq_true_eq, Finset.mem_inter, hmem]
  have hknown : k ∈ C.manifests.toFinset := List.mem_toFinset.2 (C.modules_known k hk)
  rw [List.mem_toFinset, mem_explicitOverrides, mem_explicitOverrides]
  rcases hraw : settingMap T (settingModuleOverride k) with - | raw
  · simp [hk, hknown]
  · cases hparse : parseBool raw with
    | false => simp [hk, hknown, hparse]
    | true => simp [hk, hknown, hparse]

end Loading

/-! ### Writing the rows -/

section Writing

variable {C : PlatformCatalog} {T T' : AppSettings} {packModules : List String}

theorem getByKey_upsertSetting (key value description j : String) :
    (upsertSetting T key value description).getByKey j =
      if j = key then some ⟨key, value, some description⟩ else T.getByKey j := by
  rw [upsertSetting]
  rcases hrow : T.getByKey key with - | row
  · exact @AppSettings.getByKey_create T ⟨key, value, some description⟩ hrow j
  · have hkey : row.key = key := AppSettings.key_of_getByKey hrow
    show (T.assign key fun row ↦ { row with value := value, description := some description }).getByKey j = _
    rw [AppSettings.getByKey_assign (f := fun row ↦ ⟨row.key, value, some description⟩) hrow
      (fun _ ↦ rfl) j, hkey]

theorem getByKey_upsertGiven_of_ne {key j : String} (hj : j ≠ key) (value : Option String)
    (description : String) : (upsertGiven T key value description).getByKey j = T.getByKey j := by
  cases value with
  | none => rfl
  | some value =>
    rw [upsertGiven, getByKey_upsertSetting, if_neg hj]

/-- The writes before the loop touch no override. -/
theorem getByKey_writeSettings_override (request : PlatformConfigUpdate) (k : String) :
    (writeSettings T request).getByKey (settingModuleOverride k) = T.getByKey (settingModuleOverride k) := by
  rw [writeSettings, getByKey_upsertGiven_of_ne (settingModuleOverride_ne k (by decide)),
    getByKey_upsertGiven_of_ne (settingModuleOverride_ne k (by decide)),
    getByKey_upsertGiven_of_ne (settingModuleOverride_ne k (by decide)),
    getByKey_upsertGiven_of_ne (settingModuleOverride_ne k (by decide)),
    getByKey_upsertGiven_of_ne (settingModuleOverride_ne k (by decide))]

/-- And the pack if it is requested. -/
theorem getByKey_writeSettings_pack (request : PlatformConfigUpdate) :
    ((writeSettings T request).getByKey settingModulePack).map AppSetting.value =
      request.modulePack.or ((T.getByKey settingModulePack).map AppSetting.value) := by
  rw [writeSettings, getByKey_upsertGiven_of_ne (by decide)]
  cases request.modulePack with
  | none =>
    rw [upsertGiven, getByKey_upsertGiven_of_ne (by decide), getByKey_upsertGiven_of_ne (by decide),
      getByKey_upsertGiven_of_ne (by decide), Option.none_or]
  | some modulePack => rw [upsertGiven, getByKey_upsertSetting, if_pos rfl, Option.map_some, Option.some_or]

/-- The row of an override is there if it differs from the pack. -/
theorem getByKey_writeOverride_self (k : String) (enabled : Bool) :
    ((writeOverride packModules T k enabled).getByKey (settingModuleOverride k)).map AppSetting.value =
      if enabled = packModules.contains k then none else some (serializeBool enabled) := by
  rw [writeOverride]
  by_cases heq : enabled = packModules.contains k
  · have hshould : (enabled != packModules.contains k) = false := by rw [heq, bne_self_eq_false]
    rw [hshould, if_pos heq]
    rcases hrow : T.getByKey (settingModuleOverride k) with - | row
    · show (T.getByKey (settingModuleOverride k)).map AppSetting.value = none
      rw [hrow, Option.map_none]
    · show ((T.remove (settingModuleOverride k)).getByKey _).map AppSetting.value = none
      rw [AppSettings.getByKey_remove, if_pos rfl, Option.map_none]
  · have hshould : (enabled != packModules.contains k) = true := bne_iff_ne.2 heq
    rw [hshould, if_neg heq]
    rcases hrow : T.getByKey (settingModuleOverride k) with - | row
    · have hcreate := @AppSettings.getByKey_create T ⟨settingModuleOverride k,
        serializeBool enabled, some ("Explicit module override for " ++ k ++ ".")⟩ hrow
        (settingModuleOverride k)
      rw [if_pos rfl] at hcreate
      exact congrArg (Option.map AppSetting.value) hcreate
    · have hassign := AppSettings.getByKey_assign (f := fun row ↦ { row with value := serializeBool enabled })
        hrow (fun _ ↦ rfl) (settingModuleOverride k)
      rw [if_pos rfl] at hassign
      exact congrArg (Option.map AppSetting.value) hassign

theorem getByKey_writeOverride_of_ne {k j : String} (hj : j ≠ settingModuleOverride k) (enabled : Bool) :
    (writeOverride packModules T k enabled).getByKey j = T.getByKey j := by
  rw [writeOverride]
  rcases hrow : T.getByKey (settingModuleOverride k) with - | row
  · dsimp only
    split
    · rw [AppSettings.getByKey_create hrow, if_neg hj]
    · rfl
  · dsimp only
    split
    · rw [AppSettings.getByKey_assign (f := fun row ↦ { row with value := serializeBool enabled }) hrow
        (fun _ ↦ rfl), if_neg hj]
    · rw [AppSettings.getByKey_remove, if_neg hj]

/-- **The loop.** Each key is a module, its row says what is asked if that differs from the pack and is not
there otherwise, and no other row has changed. -/
theorem writeOverrides_spec (overrides : List (String × Bool))
    (hnodup : (overrides.map Prod.fst).Nodup) (h : writeOverrides C packModules T overrides = .ok T') :
    (∀ e ∈ overrides, e.1 ∈ C.modules ∧
      (T'.getByKey (settingModuleOverride e.1)).map AppSetting.value =
        if e.2 = packModules.contains e.1 then none else some (serializeBool e.2)) ∧
    ∀ j, (∀ e ∈ overrides, j ≠ settingModuleOverride e.1) → T'.getByKey j = T.getByKey j := by
  induction overrides generalizing T with
  | nil =>
    obtain rfl : T = T' := Except.ok.inj h
    exact ⟨fun e he ↦ absurd he List.not_mem_nil, fun _ _ ↦ rfl⟩
  | cons e overrides ih =>
    obtain ⟨k, enabled⟩ := e
    rw [List.map_cons, List.nodup_cons] at hnodup
    rw [writeOverrides] at h
    split at h
    · next hk =>
      obtain ⟨hwritten, hothers⟩ := ih hnodup.2 h
      have hfresh : ∀ e ∈ overrides, settingModuleOverride k ≠ settingModuleOverride e.1 :=
        fun e he heq ↦ hnodup.1 (List.mem_map.2 ⟨e, he, (settingModuleOverride_injective heq).symm⟩)
      refine ⟨fun e he ↦ ?_, fun j hj ↦ ?_⟩
      · rcases List.mem_cons.1 he with rfl | he
        · refine ⟨by simpa using hk, ?_⟩
          rw [hothers _ hfresh, getByKey_writeOverride_self]
        · exact hwritten e he
      · rw [hothers j fun e he ↦ hj e (List.mem_cons_of_mem _ he),
          getByKey_writeOverride_of_ne (hj _ List.mem_cons_self)]
    · exact nomatch h

end Writing

/-! ### What a call leaves -/

section Update

variable (C : PlatformCatalog) (D : PlatformDefaults)
  (resolve : String → List (String × Bool) → Except String (List String))

/-- The modules of a pack, none for a name that is not one. -/
def packModules (name : String) : List String := (C.pack name).getD []

/-- The call did what it was asked: each module in `overrides` is enabled as it says, the row of each other
module is as it was, and the pack is the one requested, or the stored one. -/
def DoesAsAsked (T T' : AppSettings) (request : PlatformConfigUpdate) (overrides : Mapping Bool)
    (config : PlatformConfig) : Prop :=
  (∀ e ∈ overrides.entries, e.1 ∈ config.enabledModules ↔ e.2 = true) ∧
  (∀ k ∈ C.modules, overrides.contains k = false →
    T'.getByKey (settingModuleOverride k) = T.getByKey (settingModuleOverride k)) ∧
  config.modulePack = request.modulePack.getD (storedPack C D T)

/-- The pack of the configuration that the process has cached, or of the stored one. -/
def currentPack (cached : Option PlatformConfig) (T : AppSettings) : String :=
  (cached.map PlatformConfig.modulePack).getD (storedPack C D T)

/-- The requested pack is not the empty string; and where none is requested, the cached pack and the stored
one agree about each module whose override says what the cached pack says. -/
def PacksAgree (cached : Option PlatformConfig) (T : AppSettings) (request : PlatformConfigUpdate)
    (overrides : Mapping Bool) : Prop :=
  request.modulePack ≠ some "" ∧
  (request.modulePack = none → ∀ e ∈ overrides.entries,
    (e.2 = true ↔ e.1 ∈ packModules C (currentPack C D cached T)) →
      (e.1 ∈ packModules C (storedPack C D T) ↔ e.1 ∈ packModules C (currentPack C D cached T)))

variable {C D resolve}

/-- What is loaded is read from the rows. -/
theorem load_spec {T : AppSettings} {config : PlatformConfig}
    (h : loadPlatformConfig C D resolve T = .ok config) :
    config.modulePack = storedPack C D T ∧
      config.enabledModules =
        resolveEnabledModules C (packModules C (storedPack C D T)) (explicitOverrides C T) := by
  rw [loadPlatformConfig] at h
  split at h
  · exact nomatch h
  · next modules hpack =>
    split at h
    · exact nomatch h
    · obtain rfl := Except.ok.inj h
      exact ⟨rfl, by rw [packModules, hpack, Option.getD_some]⟩

/-- The pack that is loaded exists. -/
theorem pack_of_load {T : AppSettings} {config : PlatformConfig}
    (h : loadPlatformConfig C D resolve T = .ok config) :
    ∃ modules, C.pack (storedPack C D T) = some modules := by
  rw [loadPlatformConfig] at h
  split at h
  · exact nomatch h
  · next modules hpack => exact ⟨modules, hpack⟩

/-- No pack has the empty name. -/
theorem name_ne_empty_of_pack {name : String} {modules : List String} (h : C.pack name = some modules) :
    name ≠ "" := by
  obtain ⟨before, after, hpacks, -⟩ := List.lookup_eq_some_iff.1 h
  exact C.packs_named (name, modules) (by rw [hpacks]; exact List.mem_append_right _ List.mem_cons_self)

/-- The pack that a configuration is compared with. -/
theorem modulePack_of_getPlatformConfig {cached : Option PlatformConfig} {T : AppSettings}
    {config : PlatformConfig} (h : getPlatformConfig C D resolve cached T = .ok config) :
    config.modulePack = currentPack C D cached T := by
  cases cached with
  | none => exact (load_spec h).1
  | some cached => rw [← Except.ok.inj h, currentPack, Option.map_some, Option.getD_some]

/-- **A call that succeeds.** It has found the pack that it compares with, run the loop over the rows that it
had written before, and loaded what it left. -/
theorem update_spec {cached : Option PlatformConfig} {T T' : AppSettings} {request : PlatformConfigUpdate}
    {overrides : Mapping Bool} {config : PlatformConfig}
    (h : updatePlatformConfig C D resolve cached T request = .ok (T', config))
    (hoverrides : request.moduleOverrides = some overrides) :
    (C.pack (orStr request.modulePack (currentPack C D cached T))).isSome = true ∧
    writeOverrides C (packModules C (orStr request.modulePack (currentPack C D cached T)))
      (writeSettings T request) overrides.entries = .ok T' ∧
    loadPlatformConfig C D resolve T' = .ok config := by
  rw [updatePlatformConfig] at h
  split at h
  · exact nomatch h
  · next current hcurrent =>
    rw [modulePack_of_getPlatformConfig hcurrent] at h
    dsimp only at h
    split at h
    · exact nomatch h
    · next modules hpack =>
      rw [hoverrides] at h
      dsimp only at h
      split at h
      · exact nomatch h
      · next T₁ hwritten =>
        split at h
        · exact nomatch h
        · next config' hload =>
          obtain ⟨rfl, rfl⟩ := Prod.mk.inj (Except.ok.inj h)
          refine ⟨by rw [hpack, Option.isSome_some], ?_, hload⟩
          rw [packModules, hpack, Option.getD_some]
          exact hwritten

/-- The pack that is stored after a call: the requested one if there is such a pack. -/
theorem storedPack_of_written {T T' : AppSettings} {request : PlatformConfigUpdate}
    (h : T'.getByKey settingModulePack = (writeSettings T request).getByKey settingModulePack) :
    storedPack C D T' = match request.modulePack with
      | none => storedPack C D T
      | some name => if (C.pack name).isSome then name else D.platformDefaultModulePack := by
  have hsetting : settingMap T' settingModulePack =
      request.modulePack.or (settingMap T settingModulePack) := by
    rw [settingMap_eq (by decide), settingMap_eq (by decide), h, getByKey_writeSettings_pack]
  rw [storedPack, hsetting]
  cases request.modulePack with
  | none => rfl
  | some name => rfl

variable (C D resolve) in
/-- **An update does what it is asked if and only if the pack that it compares with agrees with the one that
is stored.** -/
theorem overrides_mean_what_they_say {cached : Option PlatformConfig} {T T' : AppSettings}
    {request : PlatformConfigUpdate} {overrides : Mapping Bool} {config : PlatformConfig}
    (h : updatePlatformConfig C D resolve cached T request = .ok (T', config))
    (hoverrides : request.moduleOverrides = some overrides) :
    DoesAsAsked C D T T' request overrides config ↔ PacksAgree C D cached T request overrides := by
  obtain ⟨hcompared, hwritten, hload⟩ := update_spec h hoverrides
  obtain ⟨hpack, henabled⟩ := load_spec hload
  obtain ⟨hrows, hothers⟩ := writeOverrides_spec _ overrides.nodup hwritten
  have hstored := storedPack_of_written (C := C) (D := D) (hothers settingModulePack fun e _ ↦
    (settingModuleOverride_ne e.1 (by decide)).symm)
  -- A module without a row is enabled by the pack that is stored.
  have hmodule : ∀ e ∈ overrides.entries, (e.1 ∈ config.enabledModules ↔ e.2 = true) ↔
      ((e.2 = true ↔ e.1 ∈ packModules C (orStr request.modulePack (currentPack C D cached T))) →
        (e.1 ∈ packModules C (storedPack C D T') ↔
          e.1 ∈ packModules C (orStr request.modulePack (currentPack C D cached T)))) := by
    intro e he
    obtain ⟨hk, hrow⟩ := hrows e he
    rw [henabled, enabled_iff hk, settingMap_override, hrow]
    by_cases heq : e.2 = (packModules C (orStr request.modulePack (currentPack C D cached T))).contains e.1
    · have hsays : e.2 = true ↔ e.1 ∈ packModules C (orStr request.modulePack (currentPack C D cached T)) := by
        rw [heq, List.contains_iff_mem]
      rw [if_pos heq]
      dsimp only
      rw [← hsays]
      exact ⟨fun hmem _ ↦ hmem, fun himp ↦ himp Iff.rfl⟩
    · rw [if_neg heq]
      dsimp only
      rw [parseBool_serializeBool]
      refine ⟨fun _ hsays ↦ absurd ?_ heq, fun _ ↦ Iff.rfl⟩
      rw [Bool.eq_iff_iff, List.contains_iff_mem]
      exact hsays
  have hunchanged : ∀ k ∈ C.modules, overrides.contains k = false →
      T'.getByKey (settingModuleOverride k) = T.getByKey (settingModuleOverride k) := by
    intro k _ hk
    rw [hothers _ fun e he heq ↦ ?_, getByKey_writeSettings_override]
    rw [Mapping.contains, settingModuleOverride_injective heq] at hk
    have hmem : (overrides.entries.map Prod.fst).contains e.1 = true :=
      List.contains_iff_mem.2 (List.mem_map.2 ⟨e, he, rfl⟩)
    exact Bool.false_ne_true (hk.symm.trans hmem)
  have hdoes : DoesAsAsked C D T T' request overrides config ↔
      (∀ e ∈ overrides.entries, (e.1 ∈ config.enabledModules ↔ e.2 = true)) ∧
        storedPack C D T' = request.modulePack.getD (storedPack C D T) := by
    rw [DoesAsAsked, hpack]
    exact ⟨fun ⟨hmodules, _, hname⟩ ↦ ⟨hmodules, hname⟩, fun ⟨hmodules, hname⟩ ↦
      ⟨hmodules, hunchanged, hname⟩⟩
  rw [hdoes, PacksAgree]
  rcases hrequest : request.modulePack with - | name
  · -- None requested: the cached pack is compared with, the stored one is loaded.
    rw [hrequest] at hstored hmodule
    rw [hstored] at hmodule ⊢
    have hcurrent : orStr none (currentPack C D cached T) = currentPack C D cached T := rfl
    rw [hcurrent] at hmodule
    constructor
    · exact fun ⟨hmodules, _⟩ ↦ ⟨fun hnone ↦ (nomatch hnone), fun _ e he ↦ (hmodule e he).1 (hmodules e he)⟩
    · exact fun ⟨_, hagree⟩ ↦ ⟨fun e he ↦ (hmodule e he).2 (hagree rfl e he), rfl⟩
  · rw [hrequest] at hstored hcompared hmodule
    by_cases hempty : name = ""
    · -- The empty string is stored, but read as the default.
      subst hempty
      have hnone : C.pack "" = none := by
        rcases hfound : C.pack "" with - | modules
        · rfl
        · exact absurd rfl (name_ne_empty_of_pack hfound)
      have hdefault : storedPack C D T' = D.platformDefaultModulePack := by
        rw [hstored]
        exact if_neg (by rw [hnone]; exact Bool.false_ne_true)
      have hne : storedPack C D T' ≠ "" := by
        obtain ⟨modules, hfound⟩ := pack_of_load hload
        exact name_ne_empty_of_pack hfound
      exact ⟨fun ⟨_, hname⟩ ↦ absurd hname hne, fun ⟨hname, _⟩ ↦ absurd rfl hname⟩
    · -- What is requested is compared with, stored and loaded.
      have hsame : orStr (some name) (currentPack C D cached T) = name := by
        rw [orStr, given_eq_some_iff.2 ⟨rfl, hempty⟩, Option.getD_some]
      rw [hsame] at hcompared hmodule
      have hname : storedPack C D T' = name := by
        rw [hstored]
        exact if_pos hcompared
      rw [hname] at hmodule ⊢
      exact ⟨fun _ ↦ ⟨fun heq ↦ hempty (Option.some.inj heq), fun hnone ↦ nomatch hnone⟩,
        fun _ ↦ ⟨fun e he ↦ (hmodule e he).2 fun _ ↦ Iff.rfl, rfl⟩⟩

end Update

/-! ### A stale pack -/

/-- The stored pack is `core`, which enables no module. -/
def coreStored : AppSettings where
  rows := [⟨settingModulePack, "core", none⟩]
  compat := List.pairwise_singleton _ _

/-- Billing is to be enabled, and nothing else to change. -/
def enableBilling : PlatformConfigUpdate where
  appName := none
  coreDomainSingular := none
  coreDomainPlural := none
  modulePack := none
  moduleOverrides := some ⟨[("billing", true)], by decide⟩
  mfaEnabled := none

/-- What a process has cached from before, when the stored pack was `full_platform`. -/
def fullPlatformCached : PlatformConfig where
  appName := "fullstack-app"
  coreDomainSingular := "Project"
  coreDomainPlural := "Projects"
  modulePack := "full_platform"
  capabilityProfile := "full_platform"
  enabledModules := PlatformCatalog.shipped.modules
  activeModules := []
  moduleCatalog := PlatformCatalog.shipped.modules.map fun key ↦ (key, true)
  moduleOverrides := []
  mfaEnabled := false

/-- The modules that an update leaves enabled, if it succeeds. -/
def enabledAfter (cached : Option PlatformConfig) : Option (List String) :=
  (updatePlatformConfig PlatformCatalog.shipped PlatformDefaults.shipped (fun _ _ ↦ .ok []) cached coreStored
    enableBilling).toOption.map fun r ↦ r.2.enabledModules

/-- An update that succeeds, with what it leaves enabled. -/
theorem updated_of_enabledAfter {cached : Option PlatformConfig} {modules : List String}
    (h : enabledAfter cached = some modules) :
    ∃ T' config, updatePlatformConfig PlatformCatalog.shipped PlatformDefaults.shipped (fun _ _ ↦ .ok [])
      cached coreStored enableBilling = .ok (T', config) ∧ config.enabledModules = modules := by
  rw [enabledAfter] at h
  rcases hupdate : updatePlatformConfig PlatformCatalog.shipped PlatformDefaults.shipped (fun _ _ ↦ .ok [])
    cached coreStored enableBilling with e | ⟨T', config⟩
  · rw [hupdate] at h
    exact nomatch h
  · rw [hupdate] at h
    exact ⟨T', config, rfl, Option.some.inj h⟩

/-- `overrides_mean_what_they_say` where nothing is cached: billing is enabled. -/
theorem overrides_mean_what_they_say_uncached :
    ∃ T' config, DoesAsAsked PlatformCatalog.shipped PlatformDefaults.shipped coreStored T' enableBilling
      ⟨[("billing", true)], by decide⟩ config := by
  obtain ⟨T', config, hupdate, -⟩ := updated_of_enabledAfter
    (show enabledAfter none = some ["billing"] by decide +kernel)
  refine ⟨T', config, (overrides_mean_what_they_say PlatformCatalog.shipped PlatformDefaults.shipped _
    hupdate rfl).2 ⟨by decide, fun _ e he _ ↦ ?_⟩⟩
  exact Iff.rfl

/-- **A module that is to be enabled is not**, since the pack that the process has cached enables it. -/
theorem overrides_are_dropped :
    ∃ T' config, updatePlatformConfig PlatformCatalog.shipped PlatformDefaults.shipped (fun _ _ ↦ .ok [])
        (some fullPlatformCached) coreStored enableBilling = .ok (T', config) ∧
      ¬DoesAsAsked PlatformCatalog.shipped PlatformDefaults.shipped coreStored T' enableBilling
        ⟨[("billing", true)], by decide⟩ config := by
  obtain ⟨T', config, hupdate, henabled⟩ := updated_of_enabledAfter
    (show enabledAfter (some fullPlatformCached) = some [] by decide +kernel)
  refine ⟨T', config, hupdate, fun hdoes ↦ ?_⟩
  have hbilling := (hdoes.1 ("billing", true) List.mem_cons_self).2 rfl
  rw [henabled] at hbilling
  exact List.not_mem_nil hbilling

end GenericApp
