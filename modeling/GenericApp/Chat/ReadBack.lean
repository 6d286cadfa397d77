import GenericApp.Chat.Conversation

/-!
# A conversation reads back

What the turns of a conversation write is known: the rows of a user message and of the assistant message behind it,
and for an answer the sources of its final event, in the order of the prompt (`Conversation.Sound`). Whether a
conversation reads back in this order is a matter of the ids that have been drawn: `InOrder` is what it takes.
-/

namespace GenericApp

open Py

/-! ### Listing in the order of creation -/

instance : Std.Total createdBefore where
  total a b := by
    rcases lt_trichotomy a.createdAt b.createdAt with h | h | h
    · exact .inl (.inl h)
    · exact (le_total a.id b.id).imp (fun hid ↦ .inr ⟨h, hid⟩) fun hid ↦ .inr ⟨h.symm, hid⟩
    · exact .inr (.inl h)

instance : IsTrans ChatMessageRow createdBefore where
  trans a b c hab hbc := by
    rcases hab with hab | ⟨hab, hid⟩
    · exact .inl (hab.trans_le (hbc.elim le_of_lt fun h ↦ h.1.le))
    · rcases hbc with hbc | ⟨hbc, hid'⟩
      · exact .inl (hab.trans_lt hbc)
      · exact .inr ⟨hab.trans hbc, hid.trans hid'⟩

theorem listMessages_eq_iff (rows : ChatRows) :
    listMessages rows = rows.messages ↔ rows.messages.Pairwise createdBefore := by
  constructor
  · intro h
    rw [← h]
    exact List.pairwise_insertionSort createdBefore rows.messages
  · exact List.Pairwise.insertionSort_eq

section Filter

variable {α β : Type} {r : α → α → Prop} [DecidableRel r] {p q : α → Bool} {l : List α}

/-- What is in order already stays in place when the rest is sorted. -/
theorem filter_insertionSort (hpq : ∀ x ∈ l, p x = true → q x = true) (h : (l.filter p).Pairwise r) :
    ((l.filter q).insertionSort r).filter p = l.filter p := by
  have hfilter : (l.filter q).filter p = l.filter p := by
    rw [List.filter_filter]
    refine List.filter_congr fun x hx ↦ ?_
    cases hp : p x with
    | false => rfl
    | true => exact hpq x hx hp
  have hsub : (l.filter p).Sublist ((l.filter q).insertionSort r) :=
    List.sublist_insertionSort h (hfilter ▸ List.filter_sublist)
  have hkept : (l.filter p).Sublist (((l.filter q).insertionSort r).filter p) := by
    have hself := hsub.filter p
    rwa [List.filter_filter, funext fun x ↦ Bool.and_self (p x)] at hself
  have hperm := (List.perm_insertionSort r (l.filter q)).filter p
  exact (hkept.eq_of_length ((hfilter ▸ hperm.length_eq).symm)).symm

theorem eq_of_perm_of_map_eq {f : α → β} {l₁ l₂ : List α} (hperm : l₁.Perm l₂) (hmap : l₁.map f = l₂.map f)
    (hnodup : (l₂.map f).Nodup) : l₁ = l₂ := by
  refine List.ext_getElem hperm.length_eq fun i h₁ h₂ ↦ ?_
  have hvalue : f l₁[i] = f l₂[i] := by
    have h := List.getElem_of_eq hmap (i := i) (by rwa [List.length_map])
    rwa [List.getElem_map, List.getElem_map] at h
  exact List.inj_on_of_nodup_map hnodup (hperm.mem_iff.1 (List.getElem_mem h₁)) (List.getElem_mem h₂) hvalue

end Filter

/-! ### What is read -/

/-- The rows of the sources of a message, as they have been added. -/
def ChatRows.sourcesOf (rows : ChatRows) (messageId : Uuid) : List ChatSourceRow :=
  rows.sources.filter fun row ↦ row.messageId = messageId

/-- A message that is answered. -/
def ChatMessageRow.Answered (m : ChatMessageRow) : Prop := m.role = .assistant ∧ m.message.status = .completed

/-- The messages come in the order in which they have been added, and the sources of each answer do. -/
def ReadsBack (availableDocuments : List String → List String) (rows : ChatRows) : Prop :=
  (serialize availableDocuments rows none).map SerializedMessage.row = rows.messages ∧
    ∀ m ∈ serialize availableDocuments rows none, m.row.Answered →
      m.sources.map SerializedSource.source = (rows.sourcesOf m.row.id).map ChatSourceRow.source

/-- Messages that have been created at the same time have been given ids in their order, and so have the sources of
each answer. -/
def InOrder (rows : ChatRows) : Prop :=
  rows.messages.Pairwise (fun a b ↦ a.createdAt = b.createdAt → a.id ≤ b.id) ∧
    ∀ m ∈ rows.messages, m.Answered → (rows.sourcesOf m.id).Pairwise fun a b ↦ a.id ≤ b.id

instance (m : ChatMessageRow) : Decidable m.Answered :=
  inferInstanceAs (Decidable (m.role = .assistant ∧ m.message.status = .completed))

instance (rows : ChatRows) : Decidable (InOrder rows) :=
  inferInstanceAs (Decidable (rows.messages.Pairwise (fun a b ↦ a.createdAt = b.createdAt → a.id ≤ b.id) ∧
    ∀ m ∈ rows.messages, m.Answered → (rows.sourcesOf m.id).Pairwise fun a b ↦ a.id ≤ b.id))

section Serialize

variable (availableDocuments : List String → List String) {rows : ChatRows}

theorem map_row_serialize :
    (serialize availableDocuments rows none).map SerializedMessage.row = listMessages rows := by
  rw [serialize, List.map_map]
  exact List.map_id _

/-- The sources of a message are those that are listed for all messages, as far as they are its own. -/
theorem sources_serialize {m : SerializedMessage} (hm : m ∈ serialize availableDocuments rows none) :
    m.row ∈ rows.messages ∧ m.sources.map SerializedSource.source =
      ((listSourcesForMessages rows ((listMessages rows).map ChatMessageRow.id)).filter
        fun row ↦ row.messageId = m.row.id).map ChatSourceRow.source := by
  obtain ⟨message, hmessage, rfl⟩ := List.mem_map.1 hm
  refine ⟨(List.mem_insertionSort _).1 hmessage, ?_⟩
  rw [List.map_map]
  exact rfl

theorem exists_mem_serialize {message : ChatMessageRow} (h : message ∈ rows.messages) :
    ∃ m ∈ serialize availableDocuments rows none, m.row = message :=
  ⟨_, List.mem_map_of_mem ((List.mem_insertionSort createdBefore).2 h), rfl⟩

theorem mem_ids_of_sourcesOf {message : ChatMessageRow} (h : message ∈ rows.messages) (row : ChatSourceRow)
    (hrow : decide (row.messageId = message.id) = true) :
    decide (row.messageId ∈ (listMessages rows).map ChatMessageRow.id) = true := by
  rw [of_decide_eq_true hrow]
  exact decide_eq_true (List.mem_map_of_mem ((List.mem_insertionSort createdBefore).2 h))

/-- Under a clock that does not go back it is enough that the ids are in order. -/
theorem readsBack_of_inOrder (hclock : rows.messages.Pairwise fun a b ↦ a.createdAt ≤ b.createdAt)
    (h : InOrder rows) : ReadsBack availableDocuments rows := by
  constructor
  · rw [map_row_serialize, listMessages_eq_iff]
    refine (hclock.and h.1).imp fun {a b} hab ↦ ?_
    exact (lt_or_eq_of_le hab.1).imp_right fun heq ↦ ⟨heq, hab.2 heq⟩
  · intro m hm hanswered
    obtain ⟨hrow, hsources⟩ := sources_serialize availableDocuments hm
    rw [hsources, listSourcesForMessages,
      filter_insertionSort (fun row _ ↦ mem_ids_of_sourcesOf hrow row) (h.2 m.row hrow hanswered)]
    exact rfl

/-- Where no answer has a source twice, it is also necessary. -/
theorem inOrder_of_readsBack
    (hdistinct : ∀ m ∈ rows.messages, m.Answered → ((rows.sourcesOf m.id).map ChatSourceRow.source).Nodup)
    (h : ReadsBack availableDocuments rows) : InOrder rows := by
  constructor
  · have hmessages := h.1
    rw [map_row_serialize, listMessages_eq_iff] at hmessages
    refine hmessages.imp fun {a b} hab heq ↦ ?_
    rcases hab with hlt | ⟨-, hid⟩
    · exact absurd heq hlt.ne
    · exact hid
  · intro message hmessage hanswered
    obtain ⟨m, hm, rfl⟩ := exists_mem_serialize availableDocuments hmessage
    obtain ⟨hrow, hsources⟩ := sources_serialize availableDocuments hm
    have hlisted := h.2 m hm hanswered
    rw [hsources, listSourcesForMessages] at hlisted
    have hperm : (((rows.sources.filter fun row ↦ row.messageId ∈ (listMessages rows).map ChatMessageRow.id).insertionSort
        fun a b ↦ a.id ≤ b.id).filter fun row ↦ row.messageId = m.row.id).Perm (rows.sourcesOf m.row.id) := by
      refine ((List.perm_insertionSort _ _).filter _).trans ?_
      rw [List.filter_filter]
      refine List.Perm.of_eq (List.filter_congr fun row _ ↦ ?_)
      cases hid : decide (row.messageId = m.row.id) with
      | false => rfl
      | true => exact mem_ids_of_sourcesOf hrow row hid
    rw [← eq_of_perm_of_map_eq hperm hlisted (hdistinct m.row hrow hanswered)]
    exact (List.pairwise_insertionSort _ _).filter _

end Serialize

end GenericApp
