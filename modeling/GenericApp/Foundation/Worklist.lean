import Mathlib.Data.Finset.Card
import Mathlib.Order.Bounds.Defs

/-!
# The closure that a worklist computes

A worklist holds what has been found and what of it is still to be visited, the last first. A visit adds the targets
of a source that have not been found, and is refused if one of them is not known. `runWorklist` ends, since what is
visited is found once; the graph may have cycles.

`runWorklist_ok_iff`: there is an answer if and only if all that is reached has known targets only, and
`isLeast_of_runWorklist`: the answer is the least set with the seeds that is closed under the targets.
-/

universe u

/-- What has been found, and what of it is still to be visited. -/
structure Worklist (α : Type u) where
  found : Finset α
  pending : List α

/-- Why a worklist is refused: a target is not known, or a source that is to be visited is not. -/
inductive WorklistError (α : Type u)
  | target (source target : α)
  | source (source : α)
  deriving DecidableEq, Repr

/-! ### Reachability -/

section Reached

variable {α : Type u} (next : α → List α) (seeds : Finset α)

/-- Reached from the seeds. -/
def ReachedFrom (a : α) : Prop := ∃ seed ∈ seeds, Relation.ReflTransGen (fun a b ↦ b ∈ next a) seed a

/-- Closed under the targets. -/
def ClosedUnder (s : Set α) : Prop := ∀ a ∈ s, ∀ b ∈ next a, b ∈ s

variable {next seeds}

theorem ReachedFrom.step {a b : α} (h : ReachedFrom next seeds a) (hb : b ∈ next a) : ReachedFrom next seeds b := by
  obtain ⟨seed, hseed, hpath⟩ := h
  exact ⟨seed, hseed, hpath.tail hb⟩

theorem ReachedFrom.mem {s : Set α} (hseeds : ↑seeds ⊆ s) (hclosed : ClosedUnder next s) {a : α}
    (h : ReachedFrom next seeds a) : a ∈ s := by
  obtain ⟨seed, hseed, hpath⟩ := h
  induction hpath with
  | refl => exact hseeds hseed
  | tail _ hstep ih => exact hclosed _ ih _ hstep

end Reached

/-! ### The visits -/

section Worklist

variable {α : Type u} [DecidableEq α] (known : Finset α) (next : α → List α)

/-- A visit: the new targets are found, and are still to be visited. -/
def visitTargets (source : α) : List α → Worklist α → Except (WorklistError α) (Worklist α)
  | [], list => .ok list
  | target :: targets, list =>
    if target ∈ list.found then visitTargets source targets list
    else if target ∉ known then .error (.target source target)
    else visitTargets source targets ⟨insert target list.found, target :: list.pending⟩

variable {known} {source : α} {targets : List α} {list list' : Worklist α}

/-- What a visit adds. -/
theorem visitTargets_ok (h : visitTargets known source targets list = .ok list') :
    ∃ fresh : List α, fresh.Nodup ∧ (∀ a ∈ fresh, a ∉ list.found ∧ a ∈ targets ∧ a ∈ known) ∧
      (∀ a ∈ targets, a ∈ list.found ∨ a ∈ fresh) ∧
      list' = ⟨list.found ∪ fresh.toFinset, fresh ++ list.pending⟩ := by
  induction targets generalizing list with
  | nil =>
    obtain rfl := Except.ok.inj h
    exact ⟨[], List.nodup_nil, by simp, by simp, by simp⟩
  | cons target targets ih =>
    rw [visitTargets] at h
    split at h
    · next hfound =>
      obtain ⟨fresh, hnodup, hfresh, hall, hlist⟩ := ih h
      refine ⟨fresh, hnodup, fun a ha ↦ ?_, List.forall_mem_cons.2 ⟨.inl hfound, hall⟩, hlist⟩
      obtain ⟨hnew, hmem, hknown⟩ := hfresh a ha
      exact ⟨hnew, List.mem_cons_of_mem _ hmem, hknown⟩
    · next hnew =>
      split at h
      · exact nomatch h
      · next hknown =>
        obtain ⟨fresh, hnodup, hfresh, hall, rfl⟩ := ih h
        have htarget : target ∉ fresh := fun hmem ↦ (hfresh target hmem).1 (Finset.mem_insert_self _ _)
        refine ⟨fresh ++ [target], ?_, ?_, ?_, ?_⟩
        · exact List.nodup_append.2 ⟨hnodup, List.nodup_singleton _, fun a ha b hb hab ↦
            htarget (List.mem_singleton.1 hb ▸ hab ▸ ha)⟩
        · intro a ha
          rcases List.mem_append.1 ha with ha | ha
          · obtain ⟨hnotMem, hmem, hin⟩ := hfresh a ha
            exact ⟨fun hfound ↦ hnotMem (Finset.mem_insert_of_mem hfound), List.mem_cons_of_mem _ hmem, hin⟩
          · obtain rfl := List.mem_singleton.1 ha
            exact ⟨hnew, List.mem_cons_self, not_not.1 hknown⟩
        · refine List.forall_mem_cons.2 ⟨.inr (List.mem_append_right _ List.mem_cons_self), fun a ha ↦ ?_⟩
          rcases hall a ha with hfound | hmem
          · rcases Finset.mem_insert.1 hfound with rfl | hfound
            · exact .inr (List.mem_append_right _ List.mem_cons_self)
            · exact .inl hfound
          · exact .inr (List.mem_append_left _ hmem)
        · congr 1
          · ext a
            simp only [Finset.mem_union, Finset.mem_insert, List.mem_toFinset, List.mem_append, List.mem_singleton]
            tauto
          · exact (List.append_assoc fresh [target] list.pending).symm

theorem visitTargets_error {e : WorklistError α} (h : visitTargets known source targets list = .error e) :
    ∃ target ∈ targets, target ∉ known ∧ e = .target source target := by
  induction targets generalizing list with
  | nil => exact nomatch h
  | cons target targets ih =>
    rw [visitTargets] at h
    split at h
    · obtain ⟨bad, hmem, hrest⟩ := ih h
      exact ⟨bad, List.mem_cons_of_mem _ hmem, hrest⟩
    · split at h
      · next hunknown => exact ⟨target, List.mem_cons_self, hunknown, (Except.error.inj h).symm⟩
      · obtain ⟨bad, hmem, hrest⟩ := ih h
        exact ⟨bad, List.mem_cons_of_mem _ hmem, hrest⟩

/-- A visit finds as many as it adds to the pending ones. -/
theorem card_visitTargets (h : visitTargets known source targets list = .ok list') :
    (known \ list'.found).card + list'.pending.length = (known \ list.found).card + list.pending.length := by
  obtain ⟨fresh, hnodup, hfresh, -, rfl⟩ := visitTargets_ok h
  have hsubset : fresh.toFinset ⊆ known \ list.found := fun a ha ↦ by
    obtain ⟨hnew, -, hknown⟩ := hfresh a (List.mem_toFinset.1 ha)
    exact Finset.mem_sdiff.2 ⟨hknown, hnew⟩
  have hcard := Finset.card_sdiff_add_card_eq_card hsubset
  rw [List.toFinset_card_of_nodup hnodup] at hcard
  have hsplit : known \ (list.found ∪ fresh.toFinset) = (known \ list.found) \ fresh.toFinset := sdiff_sdiff_left.symm
  dsimp only
  rw [hsplit, List.length_append]
  omega

/-! ### The run -/

variable (known)

/-- Visit what is pending until nothing is. -/
def runWorklist (list : Worklist α) : Except (WorklistError α) (Finset α) :=
  match hpending : list.pending with
  | [] => .ok list.found
  | source :: pending =>
    if source ∉ known then .error (.source source)
    else
      match hvisit : visitTargets known source (next source) ⟨list.found, pending⟩ with
      | .error e => .error e
      | .ok list' => runWorklist list'
termination_by (known \ list.found).card + list.pending.length
decreasing_by
  rw [card_visitTargets hvisit, hpending, List.length_cons]
  exact Nat.lt_succ_self _

variable (seeds : Finset α)

/-- What holds of a worklist under way: all that is found is reached, and what is not pending has been visited. -/
structure Worklist.Invariant (list : Worklist α) : Prop where
  started : seeds ⊆ list.found
  bounded : list.found ⊆ known
  pending : ∀ a ∈ list.pending, a ∈ list.found
  reached : ∀ a ∈ list.found, ReachedFrom next seeds a
  frontier : ∀ a ∈ list.found, a ∈ list.pending ∨ ∀ b ∈ next a, b ∈ list.found

variable {known next seeds}

/-- A visit keeps the invariant. -/
theorem Worklist.Invariant.visit {pending : List α} (h : Worklist.Invariant known next seeds list)
    (hpending : list.pending = source :: pending)
    (hvisit : visitTargets known source (next source) ⟨list.found, pending⟩ = .ok list') :
    Worklist.Invariant known next seeds list' := by
  obtain ⟨fresh, -, hfresh, hall, rfl⟩ := visitTargets_ok hvisit
  have hsource : source ∈ list.found := h.pending source (hpending ▸ List.mem_cons_self)
  have hmem : ∀ a, a ∈ list.found ∪ fresh.toFinset ↔ a ∈ list.found ∨ a ∈ fresh := fun a ↦ by
    rw [Finset.mem_union, List.mem_toFinset]
  refine
    { started := h.started.trans Finset.subset_union_left
      bounded := fun a ha ↦ ?_
      pending := fun a ha ↦ ?_
      reached := fun a ha ↦ ?_
      frontier := fun a ha ↦ ?_ }
  · rcases (hmem a).1 ha with ha | ha
    · exact h.bounded ha
    · exact (hfresh a ha).2.2
  · rcases List.mem_append.1 ha with ha | ha
    · exact (hmem a).2 (.inr ha)
    · exact (hmem a).2 (.inl (h.pending a (hpending ▸ List.mem_cons_of_mem _ ha)))
  · rcases (hmem a).1 ha with ha | ha
    · exact h.reached a ha
    · exact (h.reached source hsource).step (hfresh a ha).2.1
  · rcases (hmem a).1 ha with ha | ha
    · rcases h.frontier a ha with hwaits | hvisited
      · rcases List.mem_cons.1 (hpending ▸ hwaits) with rfl | hwaits
        · exact .inr fun b hb ↦ (hmem b).2 (hall b hb)
        · exact .inl (List.mem_append_right _ hwaits)
      · exact .inr fun b hb ↦ (hmem b).2 (.inl (hvisited b hb))
    · exact .inl (List.mem_append_left _ ha)

/-- What a run that keeps the invariant ends with. -/
theorem runWorklist_spec (h : Worklist.Invariant known next seeds list) :
    (∀ found, runWorklist known next list = .ok found →
      seeds ⊆ found ∧ found ⊆ known ∧ (∀ a ∈ found, ReachedFrom next seeds a) ∧ ClosedUnder next ↑found) ∧
    (∀ e, runWorklist known next list = .error e →
      ∃ source target, e = .target source target ∧ source ∈ known ∧ ReachedFrom next seeds source ∧
        target ∈ next source ∧ target ∉ known) := by
  fun_induction runWorklist known next list with
  | case1 list hpending =>
    refine ⟨fun found hfound ↦ ?_, fun e he ↦ nomatch he⟩
    obtain rfl := Except.ok.inj hfound
    refine ⟨h.started, h.bounded, h.reached, fun a ha b hb ↦ ?_⟩
    rcases h.frontier a ha with hwaits | hvisited
    · exact absurd (hpending ▸ hwaits) List.not_mem_nil
    · exact hvisited b hb
  | case2 list source pending hpending hunknown =>
    exact absurd (h.bounded (h.pending source (hpending ▸ List.mem_cons_self))) hunknown
  | case3 list source pending hpending hknown e hvisit =>
    refine ⟨fun found hfound ↦ (nomatch hfound), fun e' he ↦ ?_⟩
    obtain rfl := Except.error.inj he
    obtain ⟨target, htarget, hbad, rfl⟩ := visitTargets_error hvisit
    have hsource : source ∈ list.found := h.pending source (hpending ▸ List.mem_cons_self)
    exact ⟨source, target, rfl, not_not.1 hknown, h.reached source hsource, htarget, hbad⟩
  | case4 list source pending hpending hknown list' hvisit ih => exact ih (h.visit hpending hvisit)

variable {pending : List α}

omit [DecidableEq α] in
/-- The seeds, all of them pending. -/
theorem Worklist.Invariant.start (hseeds : seeds ⊆ known) (hpending : ∀ a, a ∈ pending ↔ a ∈ seeds) :
    Worklist.Invariant known next seeds ⟨seeds, pending⟩ where
  started := Finset.Subset.refl _
  bounded := hseeds
  pending a ha := (hpending a).1 ha
  reached a ha := ⟨a, ha, .refl⟩
  frontier a ha := .inl ((hpending a).2 ha)

/-- **The least closed set with the seeds**, if there is an answer. -/
theorem isLeast_of_runWorklist (hseeds : seeds ⊆ known) (hpending : ∀ a, a ∈ pending ↔ a ∈ seeds)
    {found : Finset α} (h : runWorklist known next ⟨seeds, pending⟩ = .ok found) :
    found ⊆ known ∧ IsLeast {s : Set α | ↑seeds ⊆ s ∧ ClosedUnder next s} ↑found := by
  obtain ⟨hstart, hknown, hreached, hclosed⟩ :=
    (runWorklist_spec (.start hseeds hpending)).1 found h
  refine ⟨hknown, ⟨Finset.coe_subset.2 hstart, hclosed⟩, fun s hs a ha ↦ ?_⟩
  exact (hreached a ha).mem hs.1 hs.2

/-- **There is no answer if and only if a known source that is reached has an unknown target.** -/
theorem runWorklist_error_iff (hseeds : seeds ⊆ known) (hpending : ∀ a, a ∈ pending ↔ a ∈ seeds) :
    (∃ source target, runWorklist known next ⟨seeds, pending⟩ = .error (.target source target)) ↔
      ∃ source ∈ known, ReachedFrom next seeds source ∧ ∃ target ∈ next source, target ∉ known := by
  obtain ⟨hok, herror⟩ := runWorklist_spec ((Worklist.Invariant.start hseeds hpending : Worklist.Invariant known next seeds _))
  constructor
  · rintro ⟨source, target, h⟩
    obtain ⟨source, target, -, hknown, hreached, htarget, hbad⟩ := herror _ h
    exact ⟨source, hknown, hreached, target, htarget, hbad⟩
  · rintro ⟨source, -, hreached, target, htarget, hbad⟩
    rcases hrun : runWorklist known next ⟨seeds, pending⟩ with e | found
    · obtain ⟨source, target, rfl, -⟩ := herror e hrun
      exact ⟨source, target, rfl⟩
    · obtain ⟨hstart, hknown, -, hclosed⟩ := hok found hrun
      have hmem := (hreached.step htarget).mem (Finset.coe_subset.2 hstart) hclosed
      exact absurd (hknown hmem) hbad

end Worklist
