import GenericApp.Foundation.Machine

/-!
# Parties that should not overlap

A party reads something, decides by what it has read, and writes later. Between the read and the write
it is *busy*, and what it has read is of use only if nobody else is busy at the same time. `Alone` says
that at most one party is. It is kept by every party that becomes busy while no one else is
(`Alone.set`), and that is a condition on the step in which it reads, `NobodyElse`.

The parties stand in a list, to which new ones are appended.
-/

universe u

section Races

variable {κ : Type u} {busy : κ → Prop} {calls : List κ} {c d : ℕ} {x y : κ}

/-- No other party than `c` is busy. -/
def NobodyElse (busy : κ → Prop) (calls : List κ) (c : ℕ) : Prop :=
  ∀ place ∈ calls.zipIdx, place.2 ≠ c → ¬ busy place.1

instance [DecidablePred busy] : Decidable (NobodyElse busy calls c) :=
  inferInstanceAs (Decidable (∀ place ∈ calls.zipIdx, place.2 ≠ c → ¬ busy place.1))

theorem NobodyElse.eq (h : NobodyElse busy calls c) (hd : calls[d]? = some x) (hbusy : busy x) :
    d = c := by
  by_contra hne
  have hmem : (x, d) ∈ calls.zipIdx := List.mk_mem_zipIdx_iff_getElem?.2 hd
  exact h (x, d) hmem hne hbusy

/-- At most one party is busy. -/
def Alone (busy : κ → Prop) (calls : List κ) : Prop :=
  ∀ ⦃c d : ℕ⦄ ⦃x y : κ⦄, calls[c]? = some x → calls[d]? = some y → busy x → busy y → c = d

theorem alone_nil : Alone busy [] := fun _ _ _ _ hc ↦ nomatch hc

/-- A party that joins is not busy yet. -/
theorem Alone.append (h : Alone busy calls) (hx : ¬ busy x) : Alone busy (calls ++ [x]) := by
  intro c d y z hc hd hy hz
  rcases Machine.slot_of_append hc with ⟨-, rfl⟩ | ⟨-, hc⟩
  · exact absurd hy hx
  rcases Machine.slot_of_append hd with ⟨-, rfl⟩ | ⟨-, hd⟩
  · exact absurd hz hx
  · exact h hc hd hy hz

/-- **A party may move on** if it was busy before, or is not busy now, or nobody else is. -/
theorem Alone.set (h : Alone busy calls)
    (hx : busy x → (∃ y, calls[c]? = some y ∧ busy y) ∨ NobodyElse busy calls c) :
    Alone busy (calls.set c x) := by
  have hother : ∀ ⦃d : ℕ⦄ ⦃z : κ⦄, busy x → calls[d]? = some z → busy z → d = c := by
    intro d z hbusy hd hz
    rcases hx hbusy with ⟨y, hc, hy⟩ | hnobody
    · exact h hd hc hz hy
    · exact hnobody.eq hd hz
  intro d e y z hd he hy hz
  rcases Machine.slot_of_set hd with ⟨rfl, rfl⟩ | ⟨-, hd⟩
  · rcases Machine.slot_of_set he with ⟨rfl, -⟩ | ⟨-, he⟩
    · rfl
    · exact (hother hy he hz).symm
  · rcases Machine.slot_of_set he with ⟨rfl, rfl⟩ | ⟨-, he⟩
    · exact hother hz ‹calls[d]? = some y› hy
    · exact h ‹calls[d]? = some y› he hy hz

/-- What holds of every busy party, after a move of one. -/
theorem forall_set {P : κ → Prop} (h : ∀ (d : ℕ) y, calls[d]? = some y → d ≠ c → P y) (hx : P x) :
    ∀ (d : ℕ) y, (calls.set c x)[d]? = some y → P y := by
  intro d y hd
  rcases Machine.slot_of_set hd with ⟨-, rfl⟩ | ⟨hne, hd⟩
  · exact hx
  · exact h d y hd hne

/-- A lookup that wants one row at most: `scalar_one_or_none`. More rows are an error. -/
def scalarOneOrNone {ρ : Type u} : List ρ → Except String (Option ρ)
  | [] => .ok none
  | [row] => .ok (some row)
  | _ :: _ :: _ => .error "MultipleResultsFound"

theorem scalarOneOrNone_eq_ok {ρ : Type u} {rows : List ρ} (h : rows.length ≤ 1) :
    scalarOneOrNone rows = .ok rows.head? := by
  match rows, h with
  | [], _ => rfl
  | [row], _ => rfl

theorem scalarOneOrNone_eq_none {ρ : Type u} {rows : List ρ}
    (h : scalarOneOrNone rows = .ok none) : rows = [] := by
  match rows with
  | [] => rfl
  | [_] => exact nomatch h
  | _ :: _ :: _ => exact nomatch h

end Races
