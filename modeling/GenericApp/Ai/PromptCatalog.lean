import GenericApp.Workers.ApplicationJob

/-!
# The prompt catalog

A user's prompt templates have numbered versions, of which one may be active. What a prompt resolves to is a template
and the payload of one of its versions.
-/

namespace GenericApp

open Py

/-- `AiVariableDefinition` -/
structure AiVariableDefinition where
  name : String
  description : Option String := none
  required : Bool := true
deriving DecidableEq

/-- `AiPromptTemplate` -/
structure AiPromptTemplate where
  id : Uuid
  userId : String
  key : String
  name : String
  description : Option String
  isActive : Bool := true
  activeVersionId : Option Uuid := none
deriving DecidableEq

/-- `AiPromptVersion` -/
structure AiPromptVersion where
  id : Uuid
  promptTemplateId : Uuid
  versionNumber : ℕ
  providerKey : String
  modelName : String
  systemPrompt : String
  userPromptTemplate : String
  variableDefinitions : List AiVariableDefinition
  responseFormat : String
  temperature : ℚ
  rolloutPercentage : ℕ
  isPublished : Bool
  inputCostPerMillion : ℕ
  outputCostPerMillion : ℕ
  createdByUserId : Option String
deriving DecidableEq

/-- `_version_payload` -/
structure PromptVersionPayload where
  id : Uuid
  promptTemplateId : Uuid
  providerKey : String
  modelName : String
  systemPrompt : String
  userPromptTemplate : String
  variableDefinitions : List AiVariableDefinition
  responseFormat : String
  temperature : ℚ
  inputCostPerMillion : ℕ
  outputCostPerMillion : ℕ
  isPublished : Bool
deriving DecidableEq

/-- What `resolve_prompt` returns. -/
structure ResolvedPrompt where
  templateId : Uuid
  templateKey : String
  version : PromptVersionPayload
deriving DecidableEq

/-! ### Rows of the catalog -/

/-- The template that `create_prompt_template` creates. -/
def newPromptTemplate (id : Uuid) (userId key name : String) (description : Option String) :
    AiPromptTemplate where
  id := id
  userId := userId
  key := key
  name := name
  description := description

/-- `AiPromptVersionCreate` -/
structure AiPromptVersionCreate where
  providerKey : String
  modelName : String
  systemPrompt : String
  userPromptTemplate : String
  variableDefinitions : List AiVariableDefinition
  responseFormat : String
  temperature : ℚ
  rolloutPercentage : ℕ
  isPublished : Bool
  inputCostPerMillion : ℕ
  outputCostPerMillion : ℕ
deriving DecidableEq

/-- The version that `create_prompt_version` creates. -/
def newPromptVersion (id templateId : Uuid) (versionNumber : ℕ) (userId : String)
    (payload : AiPromptVersionCreate) : AiPromptVersion where
  id := id
  promptTemplateId := templateId
  versionNumber := versionNumber
  providerKey := payload.providerKey
  modelName := payload.modelName
  systemPrompt := payload.systemPrompt
  userPromptTemplate := payload.userPromptTemplate
  variableDefinitions := payload.variableDefinitions
  responseFormat := payload.responseFormat
  temperature := payload.temperature
  rolloutPercentage := payload.rolloutPercentage
  isPublished := payload.isPublished
  inputCostPerMillion := payload.inputCostPerMillion
  outputCostPerMillion := payload.outputCostPerMillion
  createdByUserId := some userId

/-- The versions of a template. -/
def versionsOf (versions : List AiPromptVersion) (templateId : Uuid) : List AiPromptVersion :=
  versions.filter fun version ↦ version.promptTemplateId = templateId

/-- `versions[0].version_number + 1 if versions else 1`, of the page with the highest number. -/
def nextVersionNumber (versions : List AiPromptVersion) (templateId : Uuid) : ℕ :=
  ((versionsOf versions templateId).map AiPromptVersion.versionNumber).foldl max 0 + 1

theorem le_foldl_max_nat (l : List ℕ) (x : ℕ) : x ≤ l.foldl max x ∧ ∀ n ∈ l, n ≤ l.foldl max x := by
  induction l generalizing x with
  | nil => exact ⟨Nat.le_refl x, fun _ h ↦ absurd h List.not_mem_nil⟩
  | cons y l ih =>
    obtain ⟨hstart, hrest⟩ := ih (max x y)
    refine ⟨Nat.le_trans (Nat.le_max_left x y) hstart, fun n hn ↦ ?_⟩
    rcases List.mem_cons.1 hn with rfl | hn
    · exact Nat.le_trans (Nat.le_max_right x n) hstart
    · exact hrest n hn

/-- The next number is above those that are there. -/
theorem lt_nextVersionNumber {versions : List AiPromptVersion} {version : AiPromptVersion}
    (h : version ∈ versions) :
    version.versionNumber < nextVersionNumber versions version.promptTemplateId := by
  have hmem : version ∈ versionsOf versions version.promptTemplateId :=
    List.mem_filter.2 ⟨h, decide_eq_true rfl⟩
  exact Nat.lt_succ_of_le ((le_foldl_max_nat _ 0).2 _ (List.mem_map_of_mem hmem))

end GenericApp
