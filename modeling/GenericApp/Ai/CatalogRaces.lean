import GenericApp.Ai.PromptCatalog
import GenericApp.Foundation.Races
import Mathlib.Data.List.Nodup

/-!
# Creating prompts at the same time

`create_prompt_template` looks for a template with the key and inserts one if there is none;
`create_prompt_version` looks for the highest number and inserts a version with the next one. Both tables
have a primary key and no other constraint, so calls that overlap can insert a key or a number twice
(`catalog_races`). They do not as long as no call looks while another one that has looked for the same key,
or for the numbers of the same template, is still to commit (`catalog_unique`).

Each statement is a step of its own. What a session writes is in the relation with its commit. An
activation is flushed by the commit, into the row as it then is.
-/

namespace GenericApp

open Machine Py

/-! ### The calls -/

/-- The constraints of `ai_prompt_templates`. -/
def promptTemplateSchema : Schema AiPromptTemplate Uuid where
  ident template := template.id
  Compat a b := a ≠ b

instance : DecidableRel promptTemplateSchema.Compat := fun a b ↦ inferInstanceAs (Decidable (a ≠ b))

/-- The constraints of `ai_prompt_versions`. -/
def promptVersionSchema : Schema AiPromptVersion Uuid where
  ident version := version.id
  Compat a b := a ≠ b

instance : DecidableRel promptVersionSchema.Compat := fun a b ↦ inferInstanceAs (Decidable (a ≠ b))

/-- How far a call has come. -/
inductive PromptCatalogCall
  | idle
  /-- `create_prompt_template` has found no template with the key. -/
  | keyFree (userId key name : String) (description : Option String)
  | templateInserted (template : AiPromptTemplate)
  /-- `create_prompt_version` has read the template. -/
  | templateRead (userId : String) (template : AiPromptTemplate) (payload : AiPromptVersionCreate)
  /-- It has found the number of the new version. -/
  | numbered (userId : String) (template : AiPromptTemplate) (payload : AiPromptVersionCreate)
    (versionNumber : ℕ)
  | versionInserted (template : AiPromptTemplate) (version : AiPromptVersion)
  deriving DecidableEq

/-- The committed rows and the calls under way. -/
structure PromptCatalog where
  templates : Table promptTemplateSchema
  versions : Table promptVersionSchema
  calls : List PromptCatalogCall

/-- The steps. -/
inductive PromptCatalogAction
  | request
  | readKey (c : ℕ) (userId key name : String) (description : Option String)
  | insertTemplate (c : ℕ) (id : Uuid)
  | commitTemplate (c : ℕ)
  | readTemplate (c : ℕ) (userId : String) (templateId : Uuid) (payload : AiPromptVersionCreate)
  | readNumbers (c : ℕ)
  | insertVersion (c : ℕ) (id : Uuid)
  | commitVersion (c : ℕ)
  /-- The call ends without a commit: an error, or a refusal. -/
  | fail (c : ℕ)

namespace PromptCatalog

variable (s : PromptCatalog)

/-- The call goes on to this. -/
def goOn (c : ℕ) (call : PromptCatalogCall) : PromptCatalog := { s with calls := s.calls.set c call }

/-- `get_prompt_template_by_key_for_user` -/
def templateByKey (userId key : String) : Except String (Option AiPromptTemplate) :=
  scalarOneOrNone (s.templates.rows.filter fun template ↦ template.userId = userId ∧ template.key = key)

/-- `get_prompt_template_for_user` -/
def templateForUser (userId : String) (id : Uuid) : Option AiPromptTemplate :=
  (s.templates.find fun i ↦ i = id).filter fun template ↦ template.userId = userId

end PromptCatalog

/-- `template.active_version_id = version.id`, if none was active and the version is published. -/
def activateVersion (template : AiPromptTemplate) (version : AiPromptVersion) (templates : Table promptTemplateSchema) :
    Table promptTemplateSchema :=
  if template.activeVersionId = none ∧ version.isPublished then
    templates.modify (fun id ↦ id = template.id) fun current ↦
      { current with activeVersionId := some version.id }
  else templates

/-- One step of a call. -/
def promptCatalogStep (s : PromptCatalog) : PromptCatalogAction → Option PromptCatalog
  | .request => some { s with calls := s.calls ++ [.idle] }
  | .readKey c userId key name description =>
    match s.calls[c]? with
    | some .idle =>
      match s.templateByKey userId key with
      | .ok none => some (s.goOn c (.keyFree userId key name description))
      | _ => none
    | _ => none
  | .insertTemplate c id =>
    match s.calls[c]? with
    | some (.keyFree userId key name description) =>
      some (s.goOn c (.templateInserted (newPromptTemplate id userId key name description)))
    | _ => none
  | .commitTemplate c =>
    match s.calls[c]? with
    | some (.templateInserted template) => (s.templates.insert template).map fun templates ↦
        { s.goOn c .idle with templates := templates }
    | _ => none
  | .readTemplate c userId templateId payload =>
    match s.calls[c]? with
    | some .idle => (s.templateForUser userId templateId).map fun template ↦
        s.goOn c (.templateRead userId template payload)
    | _ => none
  | .readNumbers c =>
    match s.calls[c]? with
    | some (.templateRead userId template payload) =>
      some (s.goOn c (.numbered userId template payload
        (nextVersionNumber s.versions.rows template.id)))
    | _ => none
  | .insertVersion c id =>
    match s.calls[c]? with
    | some (.numbered userId template payload versionNumber) =>
      some (s.goOn c (.versionInserted template
        (newPromptVersion id template.id versionNumber userId payload)))
    | _ => none
  | .commitVersion c =>
    match s.calls[c]? with
    | some (.versionInserted template version) => (s.versions.insert version).map fun versions ↦
        { s.goOn c .idle with
          templates := activateVersion template version s.templates
          versions := versions }
    | _ => none
  | .fail c => some (s.goOn c .idle)

/-- The catalog, from empty relations. -/
def promptCatalogMachine : Machine PromptCatalog PromptCatalogAction where
  init s := s = ⟨Table.empty, Table.empty, []⟩
  step := promptCatalogStep

/-! ### Calls that have looked -/

/-- The user and the key for which the call is going to commit a template. -/
def PromptCatalogCall.key : PromptCatalogCall → Option (String × String)
  | keyFree userId key _ _ => some (userId, key)
  | templateInserted template => some (template.userId, template.key)
  | _ => none

/-- The template and the number for which it is going to commit a version. -/
def PromptCatalogCall.number : PromptCatalogCall → Option (Uuid × ℕ)
  | numbered _ template _ versionNumber => some (template.id, versionNumber)
  | versionInserted _ version => some (version.promptTemplateId, version.versionNumber)
  | _ => none

/-- The call is going to commit a template with this key. -/
def TakesKey (key : String × String) (call : PromptCatalogCall) : Prop := call.key = some key

/-- The call is going to commit a version of the template. -/
def Numbers (templateId : Uuid) (call : PromptCatalogCall) : Prop :=
  call.number.map Prod.fst = some templateId

instance (key : String × String) : DecidablePred (TakesKey key) := fun call ↦
  inferInstanceAs (Decidable (call.key = some key))

instance (templateId : Uuid) : DecidablePred (Numbers templateId) := fun call ↦
  inferInstanceAs (Decidable (call.number.map Prod.fst = some templateId))

namespace PromptCatalog

/-- The keys that are taken. -/
def keys (s : PromptCatalog) : List (String × String) :=
  s.templates.rows.map fun template ↦ (template.userId, template.key)

/-- The numbers that are taken. -/
def numbers (s : PromptCatalog) : List (Uuid × ℕ) :=
  s.versions.rows.map fun version ↦ (version.promptTemplateId, version.versionNumber)

/-- The step is not the look of a call while another one that has looked for the same is still to
commit. -/
def serial (s : PromptCatalog) : PromptCatalogAction → Bool
  | .readKey c userId key _ _ =>
    decide ((userId, key) ∈ s.keys ∨ NobodyElse (TakesKey (userId, key)) s.calls c)
  | .readNumbers c =>
    match s.calls[c]? with
    | some (.templateRead _ template _) => decide (NobodyElse (Numbers template.id) s.calls c)
    | _ => true
  | _ => true

end PromptCatalog

/-- What every step of that kind keeps. -/
structure PromptCatalogInvariant (s : PromptCatalog) : Prop where
  keys : s.keys.Nodup
  keyAlone : ∀ key, Alone (TakesKey key) s.calls
  keyAbsent : ∀ (c : ℕ) call, s.calls[c]? = some call → ∀ key, call.key = some key → key ∉ s.keys
  numbers : s.numbers.Nodup
  numberAlone : ∀ templateId, Alone (Numbers templateId) s.calls
  numberAbove : ∀ (c : ℕ) call, s.calls[c]? = some call → ∀ templateId n,
    call.number = some (templateId, n) → ∀ taken, (templateId, taken) ∈ s.numbers → taken < n

section Steps

variable {s t : PromptCatalog} {a : PromptCatalogAction} {c : ℕ} {call : PromptCatalogCall}

/-- A call goes on, and nothing is committed. -/
theorem PromptCatalogInvariant.move (h : PromptCatalogInvariant s)
    (hkey : ∀ key, call.key = some key → (∃ old, s.calls[c]? = some old ∧ old.key = some key) ∨
      (NobodyElse (TakesKey key) s.calls c ∧ key ∉ s.keys))
    (hnumber : ∀ templateId n, call.number = some (templateId, n) →
      (∃ old, s.calls[c]? = some old ∧ old.number = some (templateId, n)) ∨
        (NobodyElse (Numbers templateId) s.calls c ∧
          ∀ taken, (templateId, taken) ∈ s.numbers → taken < n)) :
    PromptCatalogInvariant (s.goOn c call) := by
  refine ⟨h.keys, fun key ↦ (h.keyAlone key).set fun hbusy ↦ (hkey key hbusy).imp_right And.left, ?_,
    h.numbers, fun templateId ↦ (h.numberAlone templateId).set fun hbusy ↦ ?_, ?_⟩
  · refine forall_set (fun d old hd _ ↦ h.keyAbsent d old hd) fun key hbusy ↦ ?_
    rcases hkey key hbusy with ⟨old, hold, holdKey⟩ | ⟨-, habsent⟩
    · exact h.keyAbsent c old hold key holdKey
    · exact habsent
  · obtain ⟨⟨id, n⟩, hn, rfl⟩ := Option.map_eq_some_iff.1 hbusy
    refine (hnumber id n hn).imp ?_ And.left
    rintro ⟨old, hold, holdNumber⟩
    exact ⟨old, hold, by rw [Numbers, holdNumber]; rfl⟩
  · refine forall_set (fun d old hd _ ↦ h.numberAbove d old hd) fun templateId n hbusy ↦ ?_
    rcases hnumber templateId n hbusy with ⟨old, hold, holdNumber⟩ | ⟨-, habove⟩
    · exact h.numberAbove c old hold templateId n holdNumber
    · exact habove

/-- A call that has not looked goes on. -/
theorem PromptCatalogInvariant.plain (h : PromptCatalogInvariant s) (hkey : call.key = none)
    (hnumber : call.number = none) : PromptCatalogInvariant (s.goOn c call) :=
  h.move (fun _ hsome ↦ nomatch hkey.symm.trans hsome) fun _ _ hsome ↦
    nomatch hnumber.symm.trans hsome

/-- A request comes in. -/
theorem PromptCatalogInvariant.request (h : PromptCatalogInvariant s) :
    PromptCatalogInvariant { s with calls := s.calls ++ [.idle] } := by
  refine ⟨h.keys, fun key ↦ (h.keyAlone key).append (fun hidle ↦ nomatch hidle), ?_, h.numbers,
    fun templateId ↦ (h.numberAlone templateId).append (fun hidle ↦ nomatch hidle), ?_⟩
  · intro d call hd key hkey
    rcases slot_of_append hd with ⟨-, rfl⟩ | ⟨-, hd⟩
    · exact nomatch hkey
    · exact h.keyAbsent d call hd key hkey
  · intro d call hd templateId n hnumber
    rcases slot_of_append hd with ⟨-, rfl⟩ | ⟨-, hd⟩
    · exact nomatch hnumber
    · exact h.numberAbove d call hd templateId n hnumber

/-- A template is committed: its key was free, and nobody else is about to take it. -/
theorem PromptCatalogInvariant.commitTemplate (h : PromptCatalogInvariant s) {template : AiPromptTemplate}
    (hcall : s.calls[c]? = some (.templateInserted template)) {templates : Table promptTemplateSchema}
    (hinsert : s.templates.insert template = some templates) :
    PromptCatalogInvariant { s.goOn c .idle with templates := templates } := by
  have hidle : PromptCatalogInvariant (s.goOn c .idle) := h.plain rfl rfl
  have hkeys : templates.rows.map (fun template ↦ (template.userId, template.key)) =
      s.keys ++ [(template.userId, template.key)] := by
    rw [Table.rows_of_insert hinsert, List.map_append]
    rfl
  have htakes : TakesKey (template.userId, template.key) (.templateInserted template) := rfl
  have habsent := h.keyAbsent c _ hcall _ htakes
  refine ⟨?_, hidle.keyAlone, ?_, hidle.numbers, hidle.numberAlone, hidle.numberAbove⟩
  · show (templates.rows.map fun template ↦ (template.userId, template.key)).Nodup
    rw [hkeys]
    exact List.nodup_append.2 ⟨h.keys, List.nodup_singleton _, fun a ha b hb heq ↦
      habsent (List.mem_singleton.1 hb ▸ heq ▸ ha)⟩
  · refine forall_set (fun d call hd hne key hkey hmem ↦ ?_) fun key hkey ↦ nomatch hkey
    have hmem : key ∈ templates.rows.map fun template ↦ (template.userId, template.key) := hmem
    rw [hkeys] at hmem
    rcases List.mem_append.1 hmem with hold | hnew
    · exact h.keyAbsent d call hd key hkey hold
    · -- The other call would be about to take the same key.
      obtain rfl := List.mem_singleton.1 hnew
      exact hne (h.keyAlone _ hd hcall hkey htakes)

/-- An activation changes no key. -/
theorem keys_activateVersion (template : AiPromptTemplate) (version : AiPromptVersion)
    (templates : Table promptTemplateSchema) :
    (activateVersion template version templates).rows.map (fun row ↦ (row.userId, row.key)) =
      templates.rows.map fun row ↦ (row.userId, row.key) := by
  rw [activateVersion]
  split
  · show (templates.rows.map _).map _ = _
    rw [List.map_map]
    refine List.map_congr_left fun row _ ↦ ?_
    show ((Table.modifyRow _ _ _ row).userId, (Table.modifyRow _ _ _ row).key) = _
    rw [Table.modifyRow]
    split <;> rfl
  · rfl

/-- A version is committed: its number is above those that are there, and nobody else is about to commit
one of the same template. -/
theorem PromptCatalogInvariant.commitVersion (h : PromptCatalogInvariant s) {template : AiPromptTemplate}
    {version : AiPromptVersion} (hcall : s.calls[c]? = some (.versionInserted template version))
    {versions : Table promptVersionSchema} (hinsert : s.versions.insert version = some versions) :
    PromptCatalogInvariant { s.goOn c .idle with
      templates := activateVersion template version s.templates, versions := versions } := by
  have hidle : PromptCatalogInvariant (s.goOn c .idle) := h.plain rfl rfl
  have hkeys := keys_activateVersion template version s.templates
  have hnumbers : versions.rows.map (fun row ↦ (row.promptTemplateId, row.versionNumber)) =
      s.numbers ++ [(version.promptTemplateId, version.versionNumber)] := by
    rw [Table.rows_of_insert hinsert, List.map_append]
    rfl
  have hmine : Numbers version.promptTemplateId (.versionInserted template version) := rfl
  have habove := h.numberAbove c _ hcall _ _ rfl
  refine ⟨?_, hidle.keyAlone, fun d call hd key hkey ↦ ?_, ?_, hidle.numberAlone, ?_⟩
  · show (List.map (fun row : AiPromptTemplate ↦ (row.userId, row.key)) _).Nodup
    rw [hkeys]
    exact h.keys
  · show key ∉ List.map (fun row : AiPromptTemplate ↦ (row.userId, row.key)) _
    rw [hkeys]
    exact hidle.keyAbsent d call hd key hkey
  · show (versions.rows.map fun row ↦ (row.promptTemplateId, row.versionNumber)).Nodup
    rw [hnumbers]
    refine List.nodup_append.2 ⟨h.numbers, List.nodup_singleton _, fun a ha b hb heq ↦ ?_⟩
    obtain rfl := List.mem_singleton.1 hb
    exact Nat.lt_irrefl _ (habove _ (heq ▸ ha))
  · refine forall_set (fun d call hd hne templateId n hnumber taken hmem ↦ ?_)
      fun templateId n hnumber ↦ nomatch hnumber
    have hmem : (templateId, taken) ∈
      versions.rows.map fun row ↦ (row.promptTemplateId, row.versionNumber) := hmem
    rw [hnumbers] at hmem
    rcases List.mem_append.1 hmem with hold | hnew
    · exact h.numberAbove d call hd templateId n hnumber taken hold
    · -- The other call would be about to commit a version of the same template.
      obtain ⟨rfl, -⟩ := Prod.mk.inj (List.mem_singleton.1 hnew)
      have hother : Numbers version.promptTemplateId call := by rw [Numbers, hnumber]; rfl
      exact absurd (h.numberAlone _ hd hcall hother hmine) hne

/-- A call that finds no template with the key looks alone. -/
theorem PromptCatalogInvariant.readKey (h : PromptCatalogInvariant s) {userId key name : String}
    {description : Option String} (hserial : s.serial (.readKey c userId key name description) = true)
    (hstep : promptCatalogStep s (.readKey c userId key name description) = some t) :
    PromptCatalogInvariant t := by
  simp only [promptCatalogStep] at hstep
  split at hstep
  · split at hstep
    · next hread =>
      obtain rfl := Option.some.inj hstep
      have habsent : (userId, key) ∉ s.keys := by
        intro hmem
        obtain ⟨row, hrow, heq⟩ := List.mem_map.1 hmem
        have hnone := List.filter_eq_nil_iff.1 (scalarOneOrNone_eq_none hread) row hrow
        exact hnone (decide_eq_true (Prod.mk.inj heq))
      refine h.move (fun found hfound ↦ ?_) fun _ _ hnumber ↦ nomatch hnumber
      obtain rfl : (userId, key) = found := Option.some.inj hfound
      exact .inr ⟨(of_decide_eq_true hserial).resolve_left habsent, habsent⟩
    · exact nomatch hstep
  · exact nomatch hstep

/-- A call looks for the numbers of a template alone. -/
theorem PromptCatalogInvariant.readNumbers (h : PromptCatalogInvariant s)
    (hserial : s.serial (.readNumbers c) = true) (hstep : promptCatalogStep s (.readNumbers c) = some t) :
    PromptCatalogInvariant t := by
  simp only [promptCatalogStep] at hstep
  simp only [PromptCatalog.serial] at hserial
  split at hstep
  · next userId template payload hcall =>
    rw [hcall] at hserial
    obtain rfl := Option.some.inj hstep
    refine h.move (fun _ hkey ↦ nomatch hkey) fun templateId n hnumber ↦ .inr ?_
    obtain ⟨rfl, rfl⟩ := Prod.mk.inj (Option.some.inj hnumber)
    refine ⟨of_decide_eq_true hserial, fun taken hmem ↦ ?_⟩
    obtain ⟨row, hrow, heq⟩ := List.mem_map.1 hmem
    obtain ⟨hid, rfl⟩ := Prod.mk.inj heq
    exact hid ▸ lt_nextVersionNumber hrow
  · exact nomatch hstep

theorem PromptCatalogInvariant.step (h : PromptCatalogInvariant s) (hserial : s.serial a = true)
    (hstep : promptCatalogStep s a = some t) : PromptCatalogInvariant t := by
  cases a with
  | request =>
    obtain rfl := Option.some.inj hstep
    exact h.request
  | readKey c userId key name description => exact h.readKey hserial hstep
  | readNumbers c => exact h.readNumbers hserial hstep
  | insertTemplate c id =>
    simp only [promptCatalogStep] at hstep
    split at hstep
    · next hcall =>
      exact Option.some.inj hstep ▸ h.move (fun _ hkey ↦ .inl ⟨_, hcall, hkey⟩)
        fun _ _ hnumber ↦ nomatch hnumber
    · exact nomatch hstep
  | commitTemplate c =>
    simp only [promptCatalogStep] at hstep
    split at hstep
    · next hcall =>
      obtain ⟨templates, hinsert, rfl⟩ := Option.map_eq_some_iff.1 hstep
      exact h.commitTemplate hcall hinsert
    · exact nomatch hstep
  | readTemplate c userId templateId payload =>
    simp only [promptCatalogStep] at hstep
    split at hstep
    · obtain ⟨template, -, rfl⟩ := Option.map_eq_some_iff.1 hstep
      exact h.plain rfl rfl
    · exact nomatch hstep
  | insertVersion c id =>
    simp only [promptCatalogStep] at hstep
    split at hstep
    · next hcall =>
      exact Option.some.inj hstep ▸ h.move (fun _ hkey ↦ nomatch hkey)
        fun _ _ hnumber ↦ .inl ⟨_, hcall, hnumber⟩
    · exact nomatch hstep
  | commitVersion c =>
    simp only [promptCatalogStep] at hstep
    split at hstep
    · next hcall =>
      obtain ⟨versions, hinsert, rfl⟩ := Option.map_eq_some_iff.1 hstep
      exact h.commitVersion hcall hinsert
    · exact nomatch hstep
  | fail c => exact Option.some.inj hstep ▸ h.plain rfl rfl

end Steps

/-- **One template a key, one version a number.** If no call finds a key free while another one that has
found it free is still to commit, and none looks for the numbers of a template while another one that has
is, then a key of a user has at most one template, so that looking it up never raises, and no two versions
of a template have the same number. -/
theorem catalog_unique {s : PromptCatalog}
    (h : promptCatalogMachine.Reachable (fun s a ↦ s.serial a = true) s) :
    (∀ userId key, (s.templates.rows.filter fun template ↦
      template.userId = userId ∧ template.key = key).length ≤ 1) ∧
      (∀ userId key, ∃ found, s.templateByKey userId key = .ok found) ∧
      ∀ templateId, ((versionsOf s.versions.rows templateId).map
        AiPromptVersion.versionNumber).Nodup := by
  have hinv : PromptCatalogInvariant s := by
    refine h.invariant (fun s hs ↦ ?_) fun s a t hs hserial hstep ↦ hs.step hserial hstep
    obtain rfl := hs
    exact ⟨List.nodup_nil, fun _ ↦ alone_nil, fun _ _ hc ↦ (nomatch hc), List.nodup_nil,
      fun _ ↦ alone_nil, fun _ _ hc ↦ (nomatch hc)⟩
  have hone : ∀ userId key, (s.templates.rows.filter fun template ↦
      template.userId = userId ∧ template.key = key).length ≤ 1 := by
    intro userId key
    have hcount := List.nodup_iff_count_le_one.1 hinv.keys (userId, key)
    rw [PromptCatalog.keys, List.count, List.countP_map, List.countP_eq_length_filter] at hcount
    refine Nat.le_trans (Nat.le_of_eq ?_) hcount
    congr 1
    refine List.filter_congr fun row _ ↦ ?_
    rw [Function.comp_apply, Bool.eq_iff_iff, decide_eq_true_iff, beq_iff_eq, Prod.mk.injEq]
  refine ⟨hone, fun userId key ↦ ⟨_, scalarOneOrNone_eq_ok (hone userId key)⟩, fun templateId ↦ ?_⟩
  -- The versions of one template are told apart by their numbers.
  refine List.Nodup.of_map (Prod.mk templateId) ?_
  rw [List.map_map]
  have hsub : ((versionsOf s.versions.rows templateId).map
      fun version ↦ (version.promptTemplateId, version.versionNumber)).Sublist s.numbers :=
    List.filter_sublist.map _
  refine List.map_congr_left (fun version hversion ↦ ?_) ▸ hinv.numbers.sublist hsub
  rw [Function.comp_apply, of_decide_eq_true (List.mem_filter.1 hversion).2]

/-- A version to create. -/
def draftVersion : AiPromptVersionCreate :=
  ⟨"local", "small", "system", "user", [], "text", 0, 100, true, 0, 0⟩

/-- Two templates of a user are created, with these keys, by calls that overlap. -/
def createTemplates (key other : String) : List PromptCatalogAction :=
  [.request, .request, .readKey 0 "u" key "Key" none, .readKey 1 "u" other "Other" none,
    .insertTemplate 0 1, .insertTemplate 1 2, .commitTemplate 0, .commitTemplate 1]

/-- Two versions of a template are created, one after the other has committed or, with `overlap`, both
before the first commit. -/
def createVersions (overlap : Bool) : List PromptCatalogAction :=
  createTemplates "summary" "title" ++
  [.readTemplate 0 "u" 1 draftVersion, .readTemplate 1 "u" 1 draftVersion, .readNumbers 0] ++
  (if overlap then [.readNumbers 1, .insertVersion 0 1, .commitVersion 0, .insertVersion 1 2,
    .commitVersion 1]
  else [.insertVersion 0 1, .commitVersion 0, .readNumbers 1, .insertVersion 1 2, .commitVersion 1])

/-- Nothing has been created. -/
def noPrompts : PromptCatalog := ⟨Table.empty, Table.empty, []⟩

theorem catalog_unique_createVersions :
    ∃ s, promptCatalogMachine.Reachable (fun s a ↦ s.serial a = true) s ∧
      (versionsOf s.versions.rows 1).map AiPromptVersion.versionNumber = [1, 2] ∧
      ((versionsOf s.versions.rows 1).map AiPromptVersion.versionNumber).Nodup :=
  ⟨(promptCatalogMachine.run (fun s a ↦ s.serial a = true) noPrompts (createVersions false)).get
      (by decide +kernel), reachable_run rfl _, by decide +kernel,
    (catalog_unique (reachable_run rfl _)).2.2 1⟩

/-- **Calls that overlap break both**: two calls create two templates with the same key, after which
looking it up raises, and two calls create two versions with the same number. -/
theorem catalog_races :
    (∃ s, promptCatalogMachine.Reachable anyStep s ∧
      (s.templates.rows.filter fun template ↦
        template.userId = "u" ∧ template.key = "summary").length = 2 ∧
      (s.templateByKey "u" "summary").toOption = none) ∧
    ∃ s, promptCatalogMachine.Reachable anyStep s ∧
      (versionsOf s.versions.rows 1).map AiPromptVersion.versionNumber = [1, 1] :=
  ⟨⟨(promptCatalogMachine.run anyStep noPrompts (createTemplates "summary" "summary")).get
      (by decide +kernel), reachable_run rfl _, by decide +kernel, by decide +kernel⟩,
    (promptCatalogMachine.run anyStep noPrompts (createVersions true)).get (by decide +kernel),
    reachable_run rfl _, by decide +kernel⟩

end GenericApp
