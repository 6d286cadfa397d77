import GenericApp.Chat.ReadBack
import Mathlib.Data.Int.ConditionallyCompleteOrder
import Mathlib.Order.ConditionallyCompleteLattice.Basic

/-!
# What the turns of a conversation write

A turn starts from the rows that are committed, and whatever happens in it, these rows stay and what is committed
behind them is nothing, or the user message and the assistant message with rows of sources that are its own
(`Turned`). When it says its last word the answer and its sources are committed (`AnswerKept`).

The invariant of a turn goes through the phases of the generator, as the other results on it do: before the messages
are written, inside the `try`, and behind the answer.
-/

namespace GenericApp

open Py

/-! ### What is committed -/

section Rows

variable (D : Draws)

/-- A message that has been drawn as the `k`-th. -/
def DrawnAt (k : ℕ) (m : ChatMessageRow) : Prop := m.id = D.uuid k ∧ m.createdAt = D.clock k

/-- The rows of whole turns, of which `n` ids have been drawn. -/
structure Grown (n : ℕ) (rows : ChatRows) : Prop where
  turns : ∃ turns : List (ChatMessageRow × ChatMessageRow), rows.messages = turns.flatMap (fun t ↦ [t.1, t.2]) ∧
    ∀ t ∈ turns, t.1.role = .user ∧ t.2.role = .assistant
  drawn : ∀ m ∈ rows.messages, ∃ k < n, DrawnAt D k m
  sources : ∀ row ∈ rows.sources, ∃ k < n, row.messageId = D.uuid k
  clock : rows.messages.Pairwise fun a b ↦ a.createdAt ≤ b.createdAt

/-- What a turn whose first draw is the `n`-th has made of the rows. -/
structure Turned (n : ℕ) (before rows : ChatRows) : Prop where
  messages : ∃ user assistant, rows.messages = before.messages ++ [user, assistant] ∧
    (DrawnAt D n user ∧ user.role = .user) ∧ DrawnAt D (n + 1) assistant ∧ assistant.role = .assistant
  sources : ∃ added, rows.sources = before.sources ++ added ∧ ∀ row ∈ added, row.messageId = D.uuid (n + 1)

/-- What the provider has been asked with is made of the sources in their order: of the chunks, or of what has been
found on the web and remembered. -/
def Prompted (sources : List ChatSource) (asked : List String) : Prop :=
  (∃ chunks userQuestion, sources = chunks.map sourceFromChunk ∧
      ∀ context ∈ asked, context = documentContext chunks userQuestion) ∨
    ∃ (historyContext : String) (useWeb : Bool) (results : List SearchResult) (recalled : MemoryRecall),
      sources = (if useWeb then results.map sourceFromSearchResult else []) ++
          recalled.itemIds.map sourceFromMemoryItem ∧
        ∀ context ∈ asked, context = "\n\n".intercalate
          ([historyContext, if useWeb then buildWebContext results else "", recalled.context].filter (· ≠ ""))

/-- What a final event says is what is committed for its message. -/
def AnswerKept (rows : ChatRows) : ChatStreamEvent × List String → Prop
  | (.final messageId answer sources, asked) =>
    ∃ m ∈ rows.messages, toString m.id = messageId ∧ m.Answered ∧ m.message.content = answer ∧
      (rows.sourcesOf m.id).map ChatSourceRow.source = sources ∧ Prompted sources asked
  | _ => True

/-- The committed rows are those of whole turns, and what has been said is in them. -/
structure ConversationDb.Sound (s : ConversationDb) : Prop where
  grown : Grown D s.drawn s.committed
  kept : ∀ e ∈ s.heard, AnswerKept s.committed e

end Rows

section Turned

variable {D : Draws} {n k : ℕ} {before rows : ChatRows}

theorem Grown.mono (h : Grown D n rows) (hnk : n ≤ k) : Grown D k rows where
  turns := h.turns
  drawn m hm := by
    obtain ⟨i, hi, hdrawn⟩ := h.drawn m hm
    exact ⟨i, hi.trans_le hnk, hdrawn⟩
  sources row hrow := by
    obtain ⟨i, hi, hdrawn⟩ := h.sources row hrow
    exact ⟨i, hi.trans_le hnk, hdrawn⟩
  clock := h.clock

theorem Turned.grown (hclock : Monotone D.clock) (hbefore : Grown D n before) (h : Turned D n before rows)
    (hnk : n + 2 ≤ k) : Grown D k rows := by
  obtain ⟨user, assistant, hmessages, ⟨huser, hrole⟩, hassistant, hrole'⟩ := h.messages
  obtain ⟨turns, hturns, hroles⟩ := hbefore.turns
  have hdrawn : ∀ m ∈ [user, assistant], DrawnAt D n m ∨ DrawnAt D (n + 1) m := by
    intro m hm
    rcases List.mem_cons.1 hm with rfl | hm
    · exact .inl huser
    · exact .inr (List.mem_singleton.1 hm ▸ hassistant)
  constructor
  · refine ⟨turns ++ [(user, assistant)], ?_, ?_⟩
    · rw [hmessages, hturns, List.flatMap_append, List.flatMap_singleton]
    · intro t ht
      rcases List.mem_append.1 ht with ht | ht
      · exact hroles t ht
      · obtain rfl := List.mem_singleton.1 ht
        exact ⟨hrole, hrole'⟩
  · intro m hm
    rcases List.mem_append.1 (hmessages ▸ hm) with hm | hm
    · obtain ⟨i, hi, hi'⟩ := hbefore.drawn m hm
      exact ⟨i, by omega, hi'⟩
    · rcases hdrawn m hm with hm | hm
      · exact ⟨n, by omega, hm⟩
      · exact ⟨n + 1, by omega, hm⟩
  · intro row hrow
    obtain ⟨added, hsources, hadded⟩ := h.sources
    rcases List.mem_append.1 (hsources ▸ hrow) with hrow | hrow
    · obtain ⟨i, hi, hi'⟩ := hbefore.sources row hrow
      exact ⟨i, by omega, hi'⟩
    · exact ⟨n + 1, by omega, hadded row hrow⟩
  · rw [hmessages]
    refine List.pairwise_append.2 ⟨hbefore.clock, ?_, ?_⟩
    · refine List.pairwise_pair.2 ?_
      rw [huser.2, hassistant.2]
      exact hclock (Nat.le_succ n)
    · intro a ha b hb
      obtain ⟨i, hi, -, ha⟩ := hbefore.drawn a ha
      rw [ha]
      rcases hdrawn b hb with hb | hb
      · exact hb.2 ▸ hclock hi.le
      · exact hb.2 ▸ hclock (by omega)

theorem uuid_ne (hdistinct : Function.Injective D.uuid) (hbefore : Grown D n before) {m : ChatMessageRow}
    (hm : m ∈ before.messages) {i : ℕ} (hi : n ≤ i) : m.id ≠ D.uuid i := by
  obtain ⟨j, hj, hid, -⟩ := hbefore.drawn m hm
  intro h
  exact absurd (hdistinct (hid.symm.trans h)) (by omega)

/-- What is assigned to the assistant message changes no other message. -/
theorem Turned.update (hdistinct : Function.Injective D.uuid) (hbefore : Grown D n before)
    (h : Turned D n before rows) (update : MessageUpdate) :
    ∃ user assistant, (rows.messages.map fun row ↦
        if some (D.uuid (n + 1)) = some row.id then { row with message := update.apply row.message } else row) =
          before.messages ++ [user, { assistant with message := update.apply assistant.message }] ∧
      (DrawnAt D n user ∧ user.role = .user) ∧ DrawnAt D (n + 1) assistant ∧ assistant.role = .assistant := by
  obtain ⟨user, assistant, hmessages, huser, hassistant, hrole⟩ := h.messages
  refine ⟨user, assistant, ?_, huser, hassistant, hrole⟩
  have hold : ∀ row ∈ before.messages,
      (if some (D.uuid (n + 1)) = some row.id then { row with message := update.apply row.message } else row) =
        row := fun row hrow ↦ if_neg fun heq ↦
    uuid_ne hdistinct hbefore hrow (Nat.le_succ n) (Option.some.inj heq).symm
  have hother : ¬some (D.uuid (n + 1)) = some user.id := fun heq ↦
    absurd (hdistinct ((Option.some.inj heq).trans huser.1.1)) (by omega)
  have hmine : some (D.uuid (n + 1)) = some assistant.id := congrArg some hassistant.1.symm
  rw [hmessages, List.map_append, List.map_congr_left hold, List.map_id', List.map_cons, List.map_cons,
    List.map_nil, if_neg hother, if_pos hmine]

theorem map_source_sourceRows (messageId : Uuid) (drawn : ℕ) (sources : List ChatSource) :
    (sourceRows D messageId drawn sources).map ChatSourceRow.source = sources := by
  rw [sourceRows, List.map_map]
  exact List.zipIdx_map_fst drawn sources

theorem messageId_of_mem_sourceRows {messageId : Uuid} {drawn : ℕ} {sources : List ChatSource}
    {row : ChatSourceRow} (h : row ∈ sourceRows D messageId drawn sources) : row.messageId = messageId := by
  obtain ⟨p, -, rfl⟩ := List.mem_map.1 h
  rfl

/-- The sources of the assistant message are those that have been added for it. -/
theorem sourcesOf_turn (hdistinct : Function.Injective D.uuid) (hbefore : Grown D n before) {drawn : ℕ}
    {sources : List ChatSource}
    (h : rows.sources = before.sources ++ sourceRows D (D.uuid (n + 1)) drawn sources) :
    (rows.sourcesOf (D.uuid (n + 1))).map ChatSourceRow.source = sources := by
  have hnone : before.sources.filter (fun row ↦ row.messageId = D.uuid (n + 1)) = [] := by
    refine List.filter_eq_nil_iff.2 fun row hrow hmine ↦ ?_
    obtain ⟨k, hk, hid⟩ := hbefore.sources row hrow
    exact absurd (hdistinct (hid.symm.trans (of_decide_eq_true hmine))) (by omega)
  have hall : (sourceRows D (D.uuid (n + 1)) drawn sources).filter
      (fun row ↦ row.messageId = D.uuid (n + 1)) = sourceRows D (D.uuid (n + 1)) drawn sources :=
    List.filter_eq_self.2 fun row hrow ↦ decide_eq_true (messageId_of_mem_sourceRows hrow)
  rw [ChatRows.sourcesOf, h, List.filter_append, hnone, List.nil_append, hall, map_source_sourceRows]

/-- What has been said in the turns before is still in the rows. -/
theorem AnswerKept.turned (hdistinct : Function.Injective D.uuid) (hbefore : Grown D n before)
    (h : Turned D n before rows) {e : ChatStreamEvent × List String} (he : AnswerKept before e) :
    AnswerKept rows e := by
  obtain ⟨user, assistant, hmessages, -⟩ := h.messages
  obtain ⟨added, hsources, hadded⟩ := h.sources
  obtain ⟨y, asked⟩ := e
  cases y with
  | final messageId answer sources =>
    obtain ⟨m, hm, hid, hanswered, hcontent, hwritten, hprompted⟩ := he
    refine ⟨m, hmessages ▸ List.mem_append_left _ hm, hid, hanswered, hcontent, ?_, hprompted⟩
    have hnone : added.filter (fun row ↦ row.messageId = m.id) = [] := by
      refine List.filter_eq_nil_iff.2 fun row hrow hmine ↦ ?_
      have hne := uuid_ne hdistinct hbefore hm (Nat.le_succ n)
      exact hne ((of_decide_eq_true hmine).symm.trans (hadded row hrow))
    rw [ChatRows.sourcesOf, hsources, List.filter_append, hnone, List.append_nil]
    exact hwritten
  | _ => trivial

end Turned

end GenericApp
