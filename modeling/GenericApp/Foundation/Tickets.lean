import Mathlib.Data.List.Nodup
import Mathlib.Data.List.Perm.Subperm
import Mathlib.Data.List.Range

/-!
# Tickets

At most once, as bookkeeping. Parties hold tickets and use them; a ticket is used by whoever holds it,
and using it takes it out of the holder's hand. If a ticket is given out only where nobody holds it and
nobody has used it, then no ticket is used twice, however the parties take turns and whatever they
drop.

Where tickets carry a number between `1` and `n`, a list of distinct ones has at most `n` members:
`length_le_of_numbered`. Together the two bound how often something can be done whose every instance
takes a numbered ticket.
-/

universe u v

/-- Who holds which tickets, and the ones that have been used. -/
structure Tickets (ω : Type u) (κ : Type v) where
  /-- The tickets of a party, in the order in which it will use them. -/
  held : ω → List κ
  /-- The tickets used, by anybody. -/
  used : List κ

namespace Tickets

variable {ω : Type u} {κ : Type v} [DecidableEq ω] {s : Tickets ω κ} {d : ω}

/-- No ticket is in two hands, or in a hand and used, or used twice. -/
structure Inv (s : Tickets ω κ) : Prop where
  once : s.used.Nodup
  nodup : ∀ d, (s.held d).Nodup
  unused : ∀ d, ∀ k ∈ s.held d, k ∉ s.used
  exclusive : ∀ d d', d ≠ d' → ∀ k ∈ s.held d, k ∉ s.held d'

/-- What the parties hold when the hand of `d` is replaced. -/
theorem Inv.replace {hand used : List κ} (h : Inv s) (honce : used.Nodup) (hhand : hand.Nodup)
    (hunused : ∀ k ∈ hand, k ∉ used) (hrest : ∀ d', d' ≠ d → ∀ k ∈ s.held d', k ∉ used)
    (hother : ∀ k ∈ hand, ∀ d', d' ≠ d → k ∉ s.held d') :
    Inv ⟨Function.update s.held d hand, used⟩ := by
  refine ⟨honce, fun d' ↦ ?_, fun d' k hk ↦ ?_, fun d₁ d₂ hne k hk hk' ↦ ?_⟩
  · rcases eq_or_ne d' d with rfl | hd'
    · simpa using hhand
    · simpa [Function.update_of_ne hd'] using h.nodup d'
  · rcases eq_or_ne d' d with rfl | hd'
    · exact hunused k (by simpa using hk)
    · exact hrest d' hd' k (by simpa [Function.update_of_ne hd'] using hk)
  · rcases eq_or_ne d₁ d with rfl | hd₁
    · have hd₂ : d₂ ≠ d₁ := hne.symm
      exact hother k (by simpa using hk) d₂ hd₂ (by simpa [Function.update_of_ne hd₂] using hk')
    · have hk₁ : k ∈ s.held d₁ := by simpa [Function.update_of_ne hd₁] using hk
      rcases eq_or_ne d₂ d with rfl | hd₂
      · exact hother k (by simpa using hk') d₁ hd₁ hk₁
      · exact h.exclusive d₁ d₂ hne k hk₁ (by simpa [Function.update_of_ne hd₂] using hk')

/-- Fresh tickets are given to a party, which drops the ones it had. -/
theorem Inv.give {new : List κ} (h : Inv s) (hnew : new.Nodup)
    (hfresh : ∀ k ∈ new, k ∉ s.used ∧ ∀ d', k ∉ s.held d') :
    Inv ⟨Function.update s.held d new, s.used⟩ :=
  h.replace h.once hnew (fun k hk ↦ (hfresh k hk).1) (fun d' _ ↦ h.unused d')
    fun k hk d' _ ↦ (hfresh k hk).2 d'

/-- A party uses its next ticket. -/
theorem Inv.use {k : κ} {rest : List κ} (h : Inv s) (hd : s.held d = k :: rest) :
    Inv ⟨Function.update s.held d rest, s.used ++ [k]⟩ := by
  have hk : k ∈ s.held d := by
    rw [hd]
    exact List.mem_cons_self
  have hsub : ∀ k' ∈ rest, k' ∈ s.held d := fun k' hk' ↦ by
    rw [hd]
    exact List.mem_cons_of_mem _ hk'
  have hcons := h.nodup d
  rw [hd, List.nodup_cons] at hcons
  refine h.replace ?_ hcons.2 (fun k' hk' ↦ ?_) (fun d' hne k' hk' ↦ ?_) fun k' hk' d' hne ↦ ?_
  · refine List.Nodup.append h.once (List.nodup_singleton k) fun k' hk' hmem ↦ ?_
    exact h.unused d k hk (List.mem_singleton.1 hmem ▸ hk')
  · rw [List.mem_append, List.mem_singleton, not_or]
    exact ⟨h.unused d k' (hsub k' hk'), fun heq ↦ hcons.1 (heq ▸ hk')⟩
  · rw [List.mem_append, List.mem_singleton, not_or]
    exact ⟨h.unused d' k' hk', fun heq ↦ h.exclusive d' d hne k' hk' (heq ▸ hk)⟩
  · exact h.exclusive d d' hne.symm k' (hsub k' hk')

/-- A party keeps some of the tickets it has. -/
theorem Inv.keep {rest : List κ} (h : Inv s) (hrest : rest.Sublist (s.held d)) :
    Inv ⟨Function.update s.held d rest, s.used⟩ :=
  h.replace h.once ((h.nodup d).sublist hrest) (fun k hk ↦ h.unused d k (hrest.subset hk))
    (fun d' _ ↦ h.unused d') fun k hk d' hne ↦ h.exclusive d d' hne.symm k (hrest.subset hk)

/-- Distinct numbers between `1` and `n` are at most `n`. -/
theorem length_le_of_numbered {l : List κ} {number : κ → ℕ} {n : ℕ} (hnodup : (l.map number).Nodup)
    (hbound : ∀ k ∈ l, 1 ≤ number k ∧ number k ≤ n) : l.length ≤ n := by
  have hsub : l.map number ⊆ List.range' 1 n := fun m hm ↦ by
    obtain ⟨k, hk, rfl⟩ := List.mem_map.1 hm
    obtain ⟨h₁, h₂⟩ := hbound k hk
    exact List.mem_range'_1.2 ⟨h₁, by omega⟩
  simpa using (List.subperm_of_subset hnodup hsub).length_le

end Tickets
