import GenericApp.Memory.MemoryConsolidator

/-!
# Which metadata survives the store

Metadata that is written with `to_dict` and read with `from_dict` comes back without its instants and without
its extra entries, and an optional text comes back as `None` where it is empty. `fromDict_toDict` says what
comes back; so `survives_iff` holds, and the recency of an item that was written with an instant is another
one when it is read back.
-/

namespace GenericApp

open Py

namespace MemoryMetadata

variable {conv : Conversions}

/-! ### Lookups in what is written -/

@[simp] theorem reverse_optionEntry (key : String) (value : Option MetaValue) :
    (optionEntry key value).reverse = optionEntry key value := by
  cases value <;> rfl

@[simp] theorem lookup_optionEntry (key other : String) (value : Option MetaValue) :
    (optionEntry key value).lookup other = if other = key then value else none := by
  cases value with
  | none => simp [optionEntry]
  | some value =>
    by_cases h : other = key
    · simp [optionEntry, h]
    · simp [optionEntry, h, List.lookup_cons, beq_eq_false_iff_ne.2 h]

/-- What is written under a key, where there are no extra entries. -/
theorem get?_toDict {m : MemoryMetadata} (h : m.extra = .empty) (key : String) :
    (m.toDict conv).get? key = (m.payload conv).reverse.lookup key := by
  rw [toDict, h, Mapping.get?_update, Mapping.get?_empty, Option.none_or, Mapping.ofEntries,
    Mapping.get?_putAll, Mapping.get?_empty, Option.or_none]

/-- An optional field, read back. -/
def kept (value : MetaValue) : MetaValue := (ifTruthy value).getD .none

theorem kept_eq_self_iff {value : MetaValue} : kept value = value ↔ value = .none ∨ value.truthy = true := by
  rw [kept, ifTruthy]
  split
  · next h => simp [h]
  · next h =>
    constructor
    · exact fun heq ↦ .inl heq.symm
    · rintro (rfl | htrue)
      · rfl
      · exact absurd htrue h

/-- **What comes back.** -/
theorem fromDict_toDict {m : MemoryMetadata} (h : m.extra = .empty) :
    fromDict conv (m.toDict conv) = .ok
      { memoryLevel := m.memoryLevel
        memoryType := m.memoryType
        userId := m.userId
        agentId := m.agentId
        runId := kept m.runId
        projectId := kept m.projectId
        source := m.source
        sourceRef := kept m.sourceRef
        confidence := m.confidence
        privacy := m.privacy
        version := m.version
        scope := m.scope
        eventType := kept m.eventType } := by
  have hread (key : String) := @get?_toDict conv _ h key
  simp only [payload, List.reverse_append, List.lookup_append, reverse_optionEntry, lookup_optionEntry]
    at hread
  have hscope : readScope (m.toDict conv) = .ok m.scope := by
    rcases hm : m.scope with - | scope
    · simp [readScope, getD, hread, hm, MetaValue.truthy, List.lookup_cons]
    · cases scope <;> simp [readScope, getD, hread, hm, MetaValue.truthy, MetaValue.toEnum, AgentScope.value,
        Except.map] <;> rfl
  simp only [fromDict, hscope, getD, hread]
  simp [kept, List.lookup_cons, MetaValue.toEnum, MetaValue.toFloat, MetaValue.toInt, Except.bind,
    MetaValue.text]

/-! ### Survival -/

/-- The metadata is the same after it has been stored, and with it the recency and the expiry of every item
that it is read back for. -/
structure SurvivesStore (conv : Conversions) (m : MemoryMetadata) : Prop where
  roundTrip : fromDict conv (m.toDict conv) = .ok m
  recency : ∀ (raw : RawMemory) (item : MemoryItem),
    parseMemoryItem conv { raw with metadata := some (m.toDict conv) } = .ok (some item) →
      recencyScore item = recencyScore { item with metadata := m }
  expiry : ∀ (raw : RawMemory) (item : MemoryItem),
    parseMemoryItem conv { raw with metadata := some (m.toDict conv) } = .ok (some item) →
      item.metadata.expiresAt = m.expiresAt

/-- The metadata has no instants and no extra entries, and no optional field that is there and empty. -/
structure Storable (m : MemoryMetadata) : Prop where
  instants : m.createdAt = none ∧ m.lastSeenAt = none ∧ m.lastConfirmedAt = none ∧ m.occurredAt = none ∧
    m.expiresAt = none
  extra : m.extra = .empty
  optional : ∀ value ∈ [m.runId, m.projectId, m.sourceRef, m.eventType], value = .none ∨ value.truthy = true

/-- What is read back for an item is what `from_dict` makes of the dictionary. -/
theorem metadata_of_parse {m m' : MemoryMetadata} (h : fromDict conv (m.toDict conv) = .ok m')
    {raw : RawMemory} {item : MemoryItem}
    (hitem : parseMemoryItem conv { raw with metadata := some (m.toDict conv) } = .ok (some item)) :
    item.metadata = m' := by
  rw [parseMemoryItem] at hitem
  split at hitem
  · obtain ⟨metadata, hread, hsome⟩ := eq_ok_of_map hitem
    rw [Option.getD_some, readMetadata, h] at hread
    obtain rfl := Option.some.inj hsome
    exact (Except.ok.inj hread).symm
  · exact nomatch Except.ok.inj hitem

theorem storable_of_roundTrip {m : MemoryMetadata} (h : fromDict conv (m.toDict conv) = .ok m) :
    m.Storable := by
  obtain ⟨hcreated, hseen, hconfirmed, hoccurred, hexpires, hextra⟩ := unread_of_fromDict conv h
  rw [fromDict_toDict hextra] at h
  have hback := Except.ok.inj h
  refine ⟨⟨hcreated, hseen, hconfirmed, hoccurred, hexpires⟩, hextra, fun value hvalue ↦ ?_⟩
  rw [← kept_eq_self_iff]
  simp only [List.mem_cons, List.not_mem_nil, or_false] at hvalue
  rcases hvalue with rfl | rfl | rfl | rfl
  · exact congrArg runId hback
  · exact congrArg projectId hback
  · exact congrArg sourceRef hback
  · exact congrArg eventType hback

theorem Storable.roundTrip {m : MemoryMetadata} (h : m.Storable) : fromDict conv (m.toDict conv) = .ok m := by
  have hkept {value : MetaValue} (hvalue : value ∈ [m.runId, m.projectId, m.sourceRef, m.eventType]) :
      kept value = value :=
    kept_eq_self_iff.2 (h.optional value hvalue)
  obtain ⟨hcreated, hseen, hconfirmed, hoccurred, hexpires⟩ := h.instants
  rw [fromDict_toDict h.extra, hkept (by simp), hkept (by simp), hkept (by simp), hkept (by simp)]
  refine congrArg Except.ok ?_
  have hextra := h.extra
  cases m
  subst hcreated hseen hconfirmed hoccurred hexpires hextra
  rfl

/-- **Which metadata survives the store.** -/
theorem survives_iff (conv : Conversions) (m : MemoryMetadata) : SurvivesStore conv m ↔ m.Storable := by
  constructor
  · exact fun h ↦ storable_of_roundTrip h.roundTrip
  · intro h
    refine ⟨h.roundTrip, fun raw item hitem ↦ ?_, fun raw item hitem ↦ ?_⟩
    · rw [← metadata_of_parse h.roundTrip hitem]
    · rw [metadata_of_parse h.roundTrip hitem]

/-- What the conversions do with the texts below. -/
def plainConversions : Conversions where
  lower := lower
  wordChar c := c.isAlphanum || c = '_'
  floatText x := if x = 4 / 5 then "0.8" else ""
  parseFloat text := if text = "0.8" then some (4 / 5) else none
  parseInt text := text.toInt?
  isoformat instant := if instant = 1767225600000000 then "2026-01-01T00:00:00+00:00" else ""
  fromisoformat text := if text = "2026-01-01T00:00:00+00:00" then some 1767225600000000 else none

/-- What `remember` writes about a fact it was told on the first of January 2026. -/
def factMetadata : MemoryMetadata where
  memoryLevel := .user
  memoryType := .fact
  userId := "u1"
  agentId := "default"
  confidence := 4 / 5
  createdAt := some 1767225600000000
  lastSeenAt := some 1767225600000000

/-- **What is written with an instant is read back without it.** -/
theorem factMetadata_does_not_survive : ¬SurvivesStore plainConversions factMetadata := by
  intro h
  have hcreated := (unread_of_fromDict plainConversions h.roundTrip).1
  exact nomatch hcreated

end MemoryMetadata

end GenericApp
