import Mathlib.Data.Finset.Basic
import GenericApp.Foundation.Python
import GenericApp.Foundation.Table

/-!
# The platform configuration

The configuration is kept in rows of `app_settings`, one a key. A module pack enables a set of modules;
a row for a module overrides the pack, one way or the other. `_load_platform_config` reads the rows,
`update_platform_config` writes them, and writes the row of an override only where it says something else
than the pack.

The pack that it compares with is the requested one or else that of the cached configuration, which is an
argument here: whatever the process has in its cache, or nothing, in which case the configuration is loaded.
The transaction is the caller's; what is returned is the rows it commits and the configuration loaded from
them. The resolution of a capability profile is a parameter: it returns the active modules, or fails.

Of a catalog entry and of a pack only what the functions read is here, so that the navigation, the routes
and the descriptions are not.
-/

namespace GenericApp

open Py

/-! ### Settings rows -/

/-- `AppSetting`. -/
structure AppSetting where
  key : String
  value : String
  description : Option String
deriving DecidableEq

/-- `key` is unique. -/
def appSettingSchema : Schema AppSetting String where
  ident := AppSetting.key
  Compat a b := a ≠ b

instance : DecidableRel appSettingSchema.Compat := fun a b ↦ inferInstanceAs (Decidable (a ≠ b))

/-- The rows of `app_settings`. -/
abbrev AppSettings := Table appSettingSchema

namespace AppSettings

/-- The row of a key. -/
def byKey (key : String) : String → Bool := fun k ↦ k = key

theorem single_byKey (key : String) : appSettingSchema.Single (byKey key) := by
  intro a b hne ha hb
  have ha : a = key := of_decide_eq_true ha
  have hb : b = key := of_decide_eq_true hb
  exact hne (ha.trans hb.symm)

variable (T : AppSettings)

/-- `SettingsRepository.get_by_key` -/
def getByKey (key : String) : Option AppSetting := T.find (byKey key)

/-- `SettingsRepository.list_by_prefix`. The prefix has no wildcard. -/
def listByPrefix (start : String) : List AppSetting :=
  T.rows.filter fun row ↦ start.toList.isPrefixOf row.key.toList

/-- `SettingsRepository.create`, of a key that has no row: nothing collides. -/
def create (row : AppSetting) : AppSettings := (T.insert row).getD T

/-- Assign to the row of a key. -/
def assign (key : String) (f : AppSetting → AppSetting) : AppSettings := T.modify (byKey key) f

/-- `SettingsRepository.delete`, of the row of a key. -/
def remove (key : String) : AppSettings := T.delete (byKey key)

variable {T} {key : String}

theorem key_of_getByKey {row : AppSetting} (h : T.getByKey key = some row) : row.key = key := by
  have hsel : byKey key (appSettingSchema.ident row) = true := Table.sel_of_find h
  exact of_decide_eq_true hsel

theorem getByKey_create {row : AppSetting} (h : T.getByKey row.key = none) (j : String) :
    (T.create row).getByKey j = if j = row.key then some row else T.getByKey j := by
  have hcompat : ∀ a ∈ T.rows, appSettingSchema.Compat (appSettingSchema.ident a)
      (appSettingSchema.ident row) := by
    intro a ha heq
    have hsel : byKey row.key (appSettingSchema.ident a) = false := Table.find_eq_none_iff.1 h a ha
    exact absurd heq (of_decide_eq_false hsel)
  have hinsert : T.insert row = some (T.create row) := by
    rw [create, Table.insert, dif_pos hcompat]
    rfl
  rw [getByKey, Table.find_of_insert hinsert, getByKey]
  by_cases hj : j = row.key
  · subst hj
    have hnone : T.find (byKey row.key) = none := h
    rw [hnone, if_pos rfl]
    exact if_pos (decide_eq_true rfl)
  · rw [if_neg hj]
    have hsel : byKey j (appSettingSchema.ident row) = false := decide_eq_false (Ne.symm hj)
    rw [hsel]
    exact Option.or_none

theorem getByKey_assign {row : AppSetting} {f : AppSetting → AppSetting} (h : T.getByKey key = some row)
    (hf : ∀ r, (f r).key = r.key) (j : String) :
    (T.assign key f).getByKey j = if j = key then some (f row) else T.getByKey j := by
  by_cases hj : j = key
  · subst hj
    rw [if_pos rfl]
    exact Table.find_modify_self h (hf row)
  · rw [if_neg hj, getByKey, assign, Table.find_modify]
    rcases hfind : T.find (byKey j) with - | r
    · exact hfind.symm
    · have hkey : r.key = j := key_of_getByKey hfind
      have hsel : byKey key (appSettingSchema.ident r) = false := decide_eq_false fun heq ↦ hj (hkey.symm.trans heq)
      rw [Option.map_some, Table.modifyRow_of_neg hsel]
      exact hfind.symm

theorem getByKey_remove (j : String) :
    (T.remove key).getByKey j = if j = key then none else T.getByKey j := by
  rw [getByKey, remove, Table.find_delete (single_byKey j)]
  rcases hfind : T.find (byKey j) with - | r
  · rw [getByKey, hfind, Option.filter_none, ite_self]
  · have hkey : r.key = j := key_of_getByKey hfind
    rw [getByKey, hfind]
    by_cases hj : j = key
    · rw [if_pos hj, Option.filter_some, if_neg]
      simp [byKey, appSettingSchema, hkey, hj]
    · rw [if_neg hj, Option.filter_some, if_pos]
      simp [byKey, appSettingSchema, hkey, hj]

end AppSettings

/-! ### Keys and static data -/

/-- `SETTING_APP_NAME` -/
def settingAppName : String := "platform.app_name"

/-- `SETTING_CORE_DOMAIN_SINGULAR` -/
def settingCoreDomainSingular : String := "platform.core_domain_singular"

/-- `SETTING_CORE_DOMAIN_PLURAL` -/
def settingCoreDomainPlural : String := "platform.core_domain_plural"

/-- `SETTING_MODULE_PACK` -/
def settingModulePack : String := "platform.module_pack"

/-- `SETTING_MFA_ENABLED` -/
def settingMfaEnabled : String := "platform.mfa_enabled"

/-- `SETTING_MODULE_OVERRIDE_PREFIX` with the key of a module. -/
def settingModuleOverride (key : String) : String := "platform.module_override." ++ key

/-- The keys of `MODULE_CATALOG`, the modules of each of `MODULE_PACKS`, and the keys of the manifests.
The catalog is made from the optional manifests. -/
structure PlatformCatalog where
  modules : List String
  packs : List (String × List String)
  manifests : List String
  modules_nodup : modules.Nodup
  modules_known : ∀ key ∈ modules, key ∈ manifests
  packs_named : ∀ pack ∈ packs, pack.1 ≠ ""

namespace PlatformCatalog

/-- The modules of a pack, if there is one of that name. -/
def pack (C : PlatformCatalog) (name : String) : Option (List String) := C.packs.lookup name

/-- What the program is shipped with. -/
def shipped : PlatformCatalog where
  modules := ["billing", "api_keys", "webhooks", "feature_flags", "email_templates"]
  packs :=
    [("core", []),
      ("lean_saas", ["billing", "api_keys", "feature_flags"]),
      ("rag", []),
      ("agent", []),
      ("automation_suite", ["api_keys", "webhooks", "feature_flags", "email_templates"]),
      ("client_portal", ["billing", "feature_flags", "email_templates"]),
      ("full_platform", ["billing", "api_keys", "webhooks", "feature_flags", "email_templates"])]
  manifests :=
    ["storage", "identity_access", "audit", "users", "profile", "projects", "settings", "platform", "policy",
      "observability", "notifications", "calendar", "admin", "jobs", "diagnostics",
      "developer_diagnostics", "ai", "rag", "chat", "memory", "billing", "api_keys", "webhooks",
      "feature_flags", "email_templates"]
  modules_nodup := by decide
  modules_known := by decide
  packs_named := by decide

end PlatformCatalog

/-- The settings that the configuration falls back on. -/
structure PlatformDefaults where
  /-- `APP_NAME` -/
  appName : String
  /-- `CORE_DOMAIN_SINGULAR` -/
  coreDomainSingular : String
  /-- `CORE_DOMAIN_PLURAL` -/
  coreDomainPlural : String
  /-- `PLATFORM_DEFAULT_MODULE_PACK` -/
  platformDefaultModulePack : String

/-- The values the program starts with when nothing is overridden. -/
def PlatformDefaults.shipped : PlatformDefaults := ⟨"fullstack-app", "Project", "Projects", "full_platform"⟩

/-! ### Loading -/

/-- How a call fails: an `HTTPException`, or the `KeyError` of a default pack that does not exist. -/
inductive PlatformError
  | http (statusCode : ℕ) (detail : String)
  | keyError (key : String)
deriving DecidableEq

/-- `PlatformConfigResponse` -/
structure PlatformConfig where
  appName : String
  coreDomainSingular : String
  coreDomainPlural : String
  modulePack : String
  capabilityProfile : String
  enabledModules : List String
  activeModules : List String
  moduleCatalog : List (String × Bool)
  moduleOverrides : List (String × Bool)
  mfaEnabled : Bool
deriving DecidableEq

/-- `PlatformConfigUpdateRequest` -/
structure PlatformConfigUpdate where
  appName : Option String
  coreDomainSingular : Option String
  coreDomainPlural : Option String
  modulePack : Option String
  moduleOverrides : Option (Mapping Bool)
  mfaEnabled : Option Bool

/-- `_parse_bool` -/
def parseBool (rawValue : String) : Bool := ["1", "true", "yes", "on"].contains (lower (strip rawValue))

/-- `_serialize_bool` -/
def serializeBool (value : Bool) : String := if value then "true" else "false"

@[simp] theorem parseBool_serializeBool (value : Bool) : parseBool (serializeBool value) = value := by
  cases value with
  | false => decide
  | true => decide

section Service

variable (C : PlatformCatalog) (D : PlatformDefaults)
  (resolve : String → List (String × Bool) → Except String (List String))

/-- `setting_map.get(key)` in `_load_platform_config`. -/
def settingMap (T : AppSettings) (key : String) : Option String :=
  ((T.listByPrefix "platform.").find? fun row ↦ row.key = key).map AppSetting.value

/-- The pack that `_load_platform_config` reads. One that does not exist is taken for the default. -/
def storedPack (T : AppSettings) : String :=
  let modulePack := (settingMap T settingModulePack).getD D.platformDefaultModulePack
  if (C.pack modulePack).isSome then modulePack else D.platformDefaultModulePack

/-- The overrides that `_load_platform_config` reads. -/
def explicitOverrides (T : AppSettings) : List (String × Bool) :=
  C.modules.filterMap fun key ↦
    (settingMap T (settingModuleOverride key)).map fun rawValue ↦ (key, parseBool rawValue)

/-- `_resolve_enabled_modules`, for the modules of a pack. -/
def resolveEnabledModules (packModules : List String) (overrides : List (String × Bool)) : List String :=
  let enabled := overrides.foldl
    (fun enabled e ↦ if e.2 then insert e.1 enabled else enabled.erase e.1) packModules.toFinset
  let enabled := enabled ∩ C.manifests.toFinset
  C.modules.filter (· ∈ enabled)

/-- `_load_platform_config` -/
def loadPlatformConfig (T : AppSettings) : Except PlatformError PlatformConfig :=
  let modulePack := storedPack C D T
  let overrides := explicitOverrides C T
  match C.pack modulePack with
  | none => .error (.keyError modulePack)
  | some packModules =>
    let enabledModules := resolveEnabledModules C packModules overrides
    match resolve modulePack overrides with
    | .error detail => .error (.http 500 detail)
    | .ok activeModules =>
      .ok {
        appName := (settingMap T settingAppName).getD D.appName
        coreDomainSingular := (settingMap T settingCoreDomainSingular).getD D.coreDomainSingular
        coreDomainPlural := (settingMap T settingCoreDomainPlural).getD D.coreDomainPlural
        modulePack := modulePack
        capabilityProfile := modulePack
        enabledModules := enabledModules
        activeModules := activeModules
        moduleCatalog := C.modules.map fun key ↦ (key, enabledModules.contains key)
        moduleOverrides := overrides
        mfaEnabled := parseBool ((settingMap T settingMfaEnabled).getD "false") }

/-! ### Updating -/

/-- `_upsert_setting` -/
def upsertSetting (T : AppSettings) (key value description : String) : AppSettings :=
  match T.getByKey key with
  | none => T.create ⟨key, value, some description⟩
  | some _ => T.assign key fun row ↦ { row with value := value, description := some description }

/-- `_upsert_setting`, of a value that is given. -/
def upsertGiven (T : AppSettings) (key : String) (value : Option String) (description : String) :
    AppSettings :=
  match value with
  | none => T
  | some value => upsertSetting T key value description

/-- The row of one override: there if it says something else than the pack. -/
def writeOverride (packModules : List String) (T : AppSettings) (key : String) (enabled : Bool) :
    AppSettings :=
  let settingKey := settingModuleOverride key
  let shouldExist := enabled != packModules.contains key
  match T.getByKey settingKey with
  | none =>
    if shouldExist then
      T.create ⟨settingKey, serializeBool enabled, some ("Explicit module override for " ++ key ++ ".")⟩
    else T
  | some _ =>
    if shouldExist then T.assign settingKey fun row ↦ { row with value := serializeBool enabled }
    else T.remove settingKey

/-- The loop over `module_overrides`. -/
def writeOverrides (packModules : List String) (T : AppSettings) :
    List (String × Bool) → Except PlatformError AppSettings
  | [] => .ok T
  | (key, enabled) :: overrides =>
    if C.modules.contains key then
      writeOverrides packModules (writeOverride packModules T key enabled) overrides
    else .error (.http 422 ("Unknown module key: " ++ key))

/-- The writes of `update_platform_config` before its loop. -/
def writeSettings (T : AppSettings) (request : PlatformConfigUpdate) : AppSettings :=
  let T := upsertGiven T settingAppName request.appName "Clone-specific app display name."
  let T := upsertGiven T settingCoreDomainSingular request.coreDomainSingular
    "Singular label for the core domain surfaced in the UI."
  let T := upsertGiven T settingCoreDomainPlural request.coreDomainPlural
    "Plural label for the core domain surfaced in the UI."
  let T := upsertGiven T settingModulePack request.modulePack
    "Active capability profile (module pack) for optional platform capabilities."
  upsertGiven T settingMfaEnabled (request.mfaEnabled.map serializeBool)
    "Whether MFA authentication is shown and enforced on login."

/-- `get_platform_config`, from what the process has cached. -/
def getPlatformConfig (cached : Option PlatformConfig) (T : AppSettings) :
    Except PlatformError PlatformConfig :=
  match cached with
  | some config => .ok config
  | none => loadPlatformConfig C D resolve T

/-- `update_platform_config`: the rows that are committed, and the configuration loaded from them. -/
def updatePlatformConfig (cached : Option PlatformConfig) (T : AppSettings)
    (request : PlatformConfigUpdate) : Except PlatformError (AppSettings × PlatformConfig) :=
  match getPlatformConfig C D resolve cached T with
  | .error e => .error e
  | .ok currentConfig =>
    let nextPack := orStr request.modulePack currentConfig.modulePack
    match C.pack nextPack with
    | none => .error (.http 422 "Unknown capability profile")
    | some packModules =>
      let T := writeSettings T request
      let written : Except PlatformError AppSettings :=
        match request.moduleOverrides with
        | none => .ok T
        | some overrides => writeOverrides C packModules T overrides.entries
      match written with
      | .error e => .error e
      | .ok T =>
        match loadPlatformConfig C D resolve T with
        | .error e => .error e
        | .ok config => .ok (T, config)

end Service

end GenericApp
