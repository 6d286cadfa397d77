import Mathlib.Data.Rat.Floor
import GenericApp.Foundation.Mapping
import GenericApp.Foundation.Outcomes

/-!
# The metadata of a memory, written and read back

What is known about a memory is stored beside it as a dictionary. `toDict` writes the fields of
`MemoryMetadata` into it, an optional field only where it holds something, and then the extra entries;
`fromDict` reads a dictionary back. Each of them lists the fields for itself, and `fromDict` lists fewer: the
instants and the extra entries are written and not read.

A dictionary may hold anything that JSON can say. What the functions do with a list or a dictionary in it is
to print it, to test whether it is empty and to refuse it, so that is all there is to a `compound` value. The
optional fields keep whatever the dictionary has for them, as their annotations are not checked.

The text of a number, the numbers that a text denotes, the text of an instant and the lower case of a text
are parameters.
-/

namespace GenericApp

open Py

/-! ### Enumerations -/

/-- `MemoryLevel` -/
inductive MemoryLevel
  | session | user | agent | project | episodic
deriving DecidableEq

/-- `MemoryType` -/
inductive MemoryType
  | preference | fact | goal | skillLevel | instruction | warning | taskState | projectContext | decision | event
deriving DecidableEq

/-- `MemorySource` -/
inductive MemorySource
  | chat | document | file | tool | manual | system | repo | api
deriving DecidableEq

/-- `MemoryPrivacy` -/
inductive MemoryPrivacy
  | normal | sensitive | doNotStore
deriving DecidableEq

/-- `AgentScope` -/
inductive AgentScope
  | globalAgent | userAgent
deriving DecidableEq

def MemoryLevel.value : MemoryLevel → String
  | session => "session"
  | user => "user"
  | agent => "agent"
  | project => "project"
  | episodic => "episodic"

def MemoryType.value : MemoryType → String
  | preference => "preference"
  | fact => "fact"
  | goal => "goal"
  | skillLevel => "skill_level"
  | instruction => "instruction"
  | warning => "warning"
  | taskState => "task_state"
  | projectContext => "project_context"
  | decision => "decision"
  | event => "event"

def MemorySource.value : MemorySource → String
  | chat => "chat"
  | document => "document"
  | file => "file"
  | tool => "tool"
  | manual => "manual"
  | system => "system"
  | repo => "repo"
  | api => "api"

def MemoryPrivacy.value : MemoryPrivacy → String
  | normal => "normal"
  | sensitive => "sensitive"
  | doNotStore => "do_not_store"

def AgentScope.value : AgentScope → String
  | globalAgent => "global_agent"
  | userAgent => "user_agent"

/-- `MemoryLevel(text)` -/
def MemoryLevel.ofValue (text : String) : Option MemoryLevel :=
  [session, user, agent, project, episodic].find? fun level ↦ level.value = text

/-- `MemoryType(text)` -/
def MemoryType.ofValue (text : String) : Option MemoryType :=
  [preference, fact, goal, skillLevel, instruction, warning, taskState, projectContext, decision,
    event].find? fun memoryType ↦ memoryType.value = text

/-- `MemorySource(text)` -/
def MemorySource.ofValue (text : String) : Option MemorySource :=
  [chat, document, file, tool, manual, system, repo, api].find? fun source ↦ source.value = text

/-- `MemoryPrivacy(text)` -/
def MemoryPrivacy.ofValue (text : String) : Option MemoryPrivacy :=
  [normal, sensitive, doNotStore].find? fun privacy ↦ privacy.value = text

/-- `AgentScope(text)` -/
def AgentScope.ofValue (text : String) : Option AgentScope :=
  [globalAgent, userAgent].find? fun scope ↦ scope.value = text

@[simp] theorem MemoryLevel.ofValue_value (level : MemoryLevel) : ofValue level.value = some level := by
  cases level <;> rfl

@[simp] theorem MemoryType.ofValue_value (memoryType : MemoryType) :
    ofValue memoryType.value = some memoryType := by
  cases memoryType <;> rfl

@[simp] theorem MemorySource.ofValue_value (source : MemorySource) : ofValue source.value = some source := by
  cases source <;> rfl

@[simp] theorem MemoryPrivacy.ofValue_value (privacy : MemoryPrivacy) :
    ofValue privacy.value = some privacy := by
  cases privacy <;> rfl

@[simp] theorem AgentScope.ofValue_value (scope : AgentScope) : ofValue scope.value = some scope := by
  cases scope <;> rfl

/-! ### Values -/

/-- A value of a metadata dictionary. -/
inductive MetaValue
  | none
  | bool (b : Bool)
  | int (n : ℤ)
  | float (x : ℚ)
  | str (s : String)
  /-- A list or a dictionary. -/
  | compound (text : String) (isEmpty : Bool)
deriving DecidableEq

/-- What Python raises where it refuses a value. -/
inductive PyError
  | valueError
  | typeError
deriving DecidableEq

/-- The conversions between numbers, instants and texts, and what Unicode says of letters. -/
structure Conversions where
  /-- `text.lower()` -/
  lower : String → String
  /-- The characters of `\w`. -/
  wordChar : Char → Bool
  /-- `str(x)` -/
  floatText : ℚ → String
  /-- `float(text)` -/
  parseFloat : String → Option ℚ
  /-- `int(text)` -/
  parseInt : String → Option ℤ
  /-- `instant.isoformat()` -/
  isoformat : DateTime → String
  /-- `datetime.fromisoformat(text)` -/
  fromisoformat : String → Option DateTime

namespace MetaValue

/-- `bool(value)` -/
def truthy : MetaValue → Bool
  | none => false
  | bool b => b
  | int n => n ≠ 0
  | float x => x ≠ 0
  | str s => s ≠ ""
  | compound _ isEmpty => !isEmpty

variable (conv : Conversions)

/-- `str(value)` -/
def text : MetaValue → String
  | none => "None"
  | bool b => if b then "True" else "False"
  | int n => toString n
  | float x => conv.floatText x
  | str s => s
  | compound text _ => text

/-- `float(value)` -/
def toFloat : MetaValue → Except PyError ℚ
  | none => .error .typeError
  | bool b => .ok (if b then 1 else 0)
  | int n => .ok n
  | float x => .ok x
  | str s => (conv.parseFloat s).elim (.error .valueError) .ok
  | compound _ _ => .error .typeError

/-- `int(value)` -/
def toInt : MetaValue → Except PyError ℤ
  | none => .error .typeError
  | bool b => .ok (if b then 1 else 0)
  | int n => .ok n
  | float x => .ok (x.num.tdiv x.den)
  | str s => (conv.parseInt s).elim (.error .valueError) .ok
  | compound _ _ => .error .typeError

/-- The call of an enumeration, which knows its members by their texts. -/
def toEnum {β : Type} (ofValue : String → Option β) : MetaValue → Except PyError β
  | str s => (ofValue s).elim (.error .valueError) .ok
  | _ => .error .valueError

end MetaValue

/-! ### Metadata -/

/-- `MemoryMetadata` -/
structure MemoryMetadata where
  memoryLevel : MemoryLevel
  memoryType : MemoryType
  userId : String
  agentId : String
  runId : MetaValue := .none
  projectId : MetaValue := .none
  source : MemorySource := .chat
  sourceRef : MetaValue := .none
  confidence : ℚ := 0
  createdAt : Option DateTime := none
  lastSeenAt : Option DateTime := none
  lastConfirmedAt : Option DateTime := none
  privacy : MemoryPrivacy := .normal
  version : ℤ := 1
  scope : Option AgentScope := none
  eventType : MetaValue := .none
  occurredAt : Option DateTime := none
  expiresAt : Option DateTime := none
  extra : Mapping MetaValue := .empty

namespace MemoryMetadata

variable (conv : Conversions)

/-- The entry of a field that holds something, and none otherwise. -/
def optionEntry (key : String) (value : Option MetaValue) : List (String × MetaValue) :=
  (value.map fun value ↦ (key, value)).toList

/-- A value that counts as true. -/
def ifTruthy (value : MetaValue) : Option MetaValue := if value.truthy then some value else none

/-- The text of an instant. -/
def instantText (instant : Option DateTime) : Option MetaValue :=
  instant.map fun instant ↦ .str (conv.isoformat instant)

/-- The fields, as `to_dict` writes them. -/
def payload (m : MemoryMetadata) : List (String × MetaValue) :=
  [("memory_level", .str m.memoryLevel.value), ("memory_type", .str m.memoryType.value),
    ("user_id", .str m.userId), ("agent_id", .str m.agentId), ("source", .str m.source.value),
    ("confidence", .float m.confidence), ("privacy", .str m.privacy.value), ("version", .int m.version)] ++
  optionEntry "run_id" (ifTruthy m.runId) ++
  optionEntry "project_id" (ifTruthy m.projectId) ++
  optionEntry "source_ref" (ifTruthy m.sourceRef) ++
  optionEntry "created_at" (instantText conv m.createdAt) ++
  optionEntry "last_seen_at" (instantText conv m.lastSeenAt) ++
  optionEntry "last_confirmed_at" (instantText conv m.lastConfirmedAt) ++
  optionEntry "scope" (m.scope.map fun scope ↦ .str scope.value) ++
  optionEntry "event_type" (ifTruthy m.eventType) ++
  optionEntry "occurred_at" (instantText conv m.occurredAt) ++
  optionEntry "expires_at" (instantText conv m.expiresAt)

/-- `MemoryMetadata.to_dict` -/
def toDict (m : MemoryMetadata) : Mapping MetaValue := (Mapping.ofEntries (m.payload conv)).update m.extra

/-- `data.get(key, default)` -/
def getD (data : Mapping MetaValue) (key : String) (default : MetaValue) : MetaValue :=
  (data.get? key).getD default

/-- `AgentScope(data["scope"]) if data.get("scope") else None` -/
def readScope (data : Mapping MetaValue) : Except PyError (Option AgentScope) :=
  if (getD data "scope" .none).truthy then
    ((getD data "scope" .none).toEnum AgentScope.ofValue).map some
  else .ok none

/-- `MemoryMetadata.from_dict` -/
def fromDict (data : Mapping MetaValue) : Except PyError MemoryMetadata :=
  ((getD data "memory_level" (.str "user")).toEnum MemoryLevel.ofValue).bind fun memoryLevel ↦
  ((getD data "memory_type" (.str "fact")).toEnum MemoryType.ofValue).bind fun memoryType ↦
  ((getD data "source" (.str "chat")).toEnum MemorySource.ofValue).bind fun source ↦
  ((getD data "confidence" (.float 0)).toFloat conv).bind fun confidence ↦
  ((getD data "privacy" (.str "normal")).toEnum MemoryPrivacy.ofValue).bind fun privacy ↦
  ((getD data "version" (.int 1)).toInt conv).bind fun version ↦
  (readScope data).bind fun scope ↦
  .ok {
    memoryLevel := memoryLevel
    memoryType := memoryType
    userId := (getD data "user_id" (.str "")).text conv
    agentId := (getD data "agent_id" (.str "")).text conv
    runId := getD data "run_id" .none
    projectId := getD data "project_id" .none
    source := source
    sourceRef := getD data "source_ref" .none
    confidence := confidence
    privacy := privacy
    version := version
    scope := scope
    eventType := getD data "event_type" .none }

/-- What is read back has no instants and no extra entries. -/
theorem unread_of_fromDict {data : Mapping MetaValue} {m : MemoryMetadata} (h : fromDict conv data = .ok m) :
    m.createdAt = none ∧ m.lastSeenAt = none ∧ m.lastConfirmedAt = none ∧ m.occurredAt = none ∧
      m.expiresAt = none ∧ m.extra = .empty := by
  obtain ⟨_, -, h⟩ := eq_ok_of_bind h
  obtain ⟨_, -, h⟩ := eq_ok_of_bind h
  obtain ⟨_, -, h⟩ := eq_ok_of_bind h
  obtain ⟨_, -, h⟩ := eq_ok_of_bind h
  obtain ⟨_, -, h⟩ := eq_ok_of_bind h
  obtain ⟨_, -, h⟩ := eq_ok_of_bind h
  obtain ⟨_, -, h⟩ := eq_ok_of_bind h
  obtain rfl := Except.ok.inj h
  exact ⟨rfl, rfl, rfl, rfl, rfl, rfl⟩

end MemoryMetadata

end GenericApp
