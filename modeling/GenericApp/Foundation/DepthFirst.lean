import Mathlib.Data.Finset.Card

/-!
# The cycles that a depth-first search finds

A search marks what it has begun to visit and what it has finished with. It is refused where it meets again what it
is still visiting. A visit takes a frame of the stack, and what is being visited is on the stack, each thing once: so
one frame more than there are things is enough, and any more make no difference (`visitAll_mono`).

The argument is about one visit. What is being visited when it begins leads to what is visited (`Begun`), so that a
refusal has found a cycle; and what is finished is closed under the targets and on no cycle (`Explored`), so that the
end of a visit has excluded one. `visitAll_spec` has both for a search from a list of things.
-/

universe u

/-- What is being visited, and what has been. -/
structure Marks (α : Type u) where
  visiting : Finset α
  visited : Finset α

/-- Why a search is refused: a cycle, something that is not known, or no frame left. -/
inductive SearchError (α : Type u)
  | cycle (a : α)
  | unknown (a : α)
  | stack
  deriving DecidableEq

section Search

variable {α : Type u} [DecidableEq α] (next : α → Option (List α))

/-- Visit something, with a number of frames. -/
def visit : ℕ → Marks α → α → Except (SearchError α) (Marks α)
  | 0, _, _ => .error .stack
  | frames + 1, marks, a =>
    if a ∈ marks.visited then .ok marks
    else if a ∈ marks.visiting then .error (.cycle a)
    else
      match next a with
      | none => .error (.unknown a)
      | some targets =>
        (targets.foldlM (visit frames) { marks with visiting := insert a marks.visiting }).map fun marks ↦
          ⟨marks.visiting.erase a, insert a marks.visited⟩

/-- Visit one thing after another. -/
def visitAll (frames : ℕ) (marks : Marks α) (starts : List α) : Except (SearchError α) (Marks α) :=
  starts.foldlM (visit next frames) marks

/-- One thing leads to another. -/
def LeadsTo (a b : α) : Prop := ∃ targets, next a = some targets ∧ b ∈ targets

variable {next} {frames : ℕ} {marks marks' : Marks α} {a b : α} {starts : List α}

theorem visitAll_cons : visitAll next frames marks (a :: starts) =
    (visit next frames marks a).bind fun marks ↦ visitAll next frames marks starts := rfl

/-! ### The stack -/

/-- A frame more does not change an answer. -/
theorem visit_succ (h : visit next frames marks a ≠ .error .stack) :
    visit next (frames + 1) marks a = visit next frames marks a := by
  induction frames generalizing marks a with
  | zero => exact absurd rfl h
  | succ frames ih =>
    -- the loop makes the same calls with one frame more, up to the one that is refused
    have hloop : ∀ (targets : List α) (marks : Marks α), visitAll next frames marks targets ≠ .error .stack →
        visitAll next (frames + 1) marks targets = visitAll next frames marks targets := by
      intro targets
      induction targets with
      | nil => exact fun _ _ ↦ rfl
      | cons target targets ihs =>
        intro marks hne
        rw [visitAll_cons] at hne ⊢
        have hfirst : visit next frames marks target ≠ .error .stack := fun heq ↦ hne (by rw [heq]; rfl)
        rw [ih hfirst, visitAll_cons]
        rcases hvisit : visit next frames marks target with e | between
        · rfl
        · rw [hvisit] at hne
          exact ihs between hne
    rw [visit, visit]
    rw [visit] at h
    by_cases hvisited : a ∈ marks.visited
    · rw [if_pos hvisited, if_pos hvisited]
    · rw [if_neg hvisited] at h ⊢
      rw [if_neg hvisited]
      by_cases hvisiting : a ∈ marks.visiting
      · rw [if_pos hvisiting, if_pos hvisiting]
      · rw [if_neg hvisiting] at h ⊢
        rw [if_neg hvisiting]
        rcases hnext : next a with - | targets
        · rfl
        · rw [hnext] at h
          have hne : visitAll next frames { marks with visiting := insert a marks.visiting } targets ≠
              .error .stack := by
            intro heq
            refine h ?_
            dsimp only
            rw [← visitAll, heq]
            rfl
          dsimp only
          rw [← visitAll, ← visitAll, hloop targets _ hne]

/-- Any frames more do not. -/
theorem visitAll_mono {more : ℕ} (hle : frames ≤ more) (h : visitAll next frames marks starts ≠ .error .stack) :
    visitAll next more marks starts = visitAll next frames marks starts := by
  have hvisit : ∀ {marks : Marks α} {a : α}, visit next frames marks a ≠ .error .stack →
      visit next more marks a = visit next frames marks a := by
    intro marks a hne
    induction more, hle using Nat.le_induction with
    | base => rfl
    | succ more _ ih => rw [visit_succ (by rwa [ih]), ih]
  induction starts generalizing marks with
  | nil => rfl
  | cons start starts ih =>
    rw [visitAll_cons] at h ⊢
    rw [hvisit fun heq ↦ h (by rw [heq]; rfl), visitAll_cons]
    rcases hfirst : visit next frames marks start with e | between
    · rfl
    · rw [hfirst] at h
      exact ih h

/-! ### The search -/

/-- What has been visited leads to what has been visited only, and is on no cycle. -/
structure Explored (next : α → Option (List α)) (visited : Finset α) : Prop where
  known : ∀ a ∈ visited, ∃ targets, next a = some targets ∧ ∀ b ∈ targets, b ∈ visited
  acyclic : ∀ a ∈ visited, ¬Relation.TransGen (LeadsTo next) a a

/-- What is being visited leads to what is visited next. -/
def Begun (next : α → Option (List α)) (visiting : Finset α) (a : α) : Prop :=
  ∀ b ∈ visiting, Relation.TransGen (LeadsTo next) b a

omit [DecidableEq α] in
theorem Explored.closed {visited : Finset α} (h : Explored next visited) (ha : a ∈ visited)
    (hab : Relation.ReflTransGen (LeadsTo next) a b) : b ∈ visited := by
  induction hab with
  | refl => exact ha
  | tail _ hstep ih =>
    obtain ⟨targets, hnext, hmem⟩ := h.known _ ih
    obtain ⟨targets', hnext', hmem'⟩ := hstep
    obtain rfl : targets = targets' := Option.some.inj (hnext.symm.trans hnext')
    exact hmem _ hmem'

/-- What leads to finished things only is finished. -/
theorem Explored.insert {visited : Finset α} {targets : List α} (h : Explored next visited)
    (hnext : next a = some targets) (htargets : ∀ b ∈ targets, b ∈ visited) : Explored next (insert a visited) where
  known b hb := by
    rcases Finset.mem_insert.1 hb with rfl | hb
    · exact ⟨targets, hnext, fun c hc ↦ Finset.mem_insert_of_mem (htargets c hc)⟩
    · obtain ⟨targets', hnext', hmem⟩ := h.known b hb
      exact ⟨targets', hnext', fun c hc ↦ Finset.mem_insert_of_mem (hmem c hc)⟩
  acyclic b hb hcycle := by
    rcases Finset.mem_insert.1 hb with rfl | hb
    · -- a cycle goes through a target, and from there it stays among the finished things
      obtain ⟨c, ⟨targets', hnext', hc⟩, hback⟩ := Relation.TransGen.head'_iff.1 hcycle
      obtain rfl : targets = targets' := Option.some.inj (hnext.symm.trans hnext')
      exact h.acyclic b (h.closed (htargets c hc) hback) hcycle
    · exact h.acyclic b hb hcycle

/-- What a search has done: it has ended, with the same things being visited as before, or it has found a cycle. -/
inductive Searched (next : α → Option (List α)) (known : Finset α) (marks : Marks α) (starts : List α) :
    Except (SearchError α) (Marks α) → Prop
  | done (marks' : Marks α) (hvisiting : marks'.visiting = marks.visiting) (hmore : marks.visited ⊆ marks'.visited)
      (hstarts : ∀ a ∈ starts, a ∈ marks'.visited) (hknown : marks'.visited ⊆ known)
      (hexplored : Explored next marks'.visited) : Searched next known marks starts (.ok marks')
  | refused (a : α) (hcycle : Relation.TransGen (LeadsTo next) a a) :
      Searched next known marks starts (.error (.cycle a))

variable {known : Finset α}

theorem searched_visitAll (marks' : Marks α)
    (hvisit : ∀ marks : Marks α, ∀ a ∈ starts, marks.visited ⊆ known → Explored next marks.visited →
      marks.visiting = marks'.visiting → Searched next known marks [a] (visit next frames marks a))
    (hvisiting : marks.visiting = marks'.visiting) (hknown : marks.visited ⊆ known)
    (hexplored : Explored next marks.visited) :
    Searched next known marks starts (visitAll next frames marks starts) := by
  induction starts generalizing marks with
  | nil => exact .done marks rfl subset_rfl (fun _ h ↦ absurd h List.not_mem_nil) hknown hexplored
  | cons start starts ih =>
    rw [visitAll_cons]
    have hfirst := hvisit marks start List.mem_cons_self hknown hexplored hvisiting
    generalize visit next frames marks start = first at hfirst ⊢
    cases hfirst with
    | refused a hcycle => exact .refused a hcycle
    | done between hbetween hmore hstart hknown' hexplored' =>
      have hrest := ih (fun marks a ha ↦ hvisit marks a (List.mem_cons_of_mem _ ha)) (hbetween.trans hvisiting)
        hknown' hexplored'
      dsimp only [Except.bind]
      generalize visitAll next frames between starts = rest at hrest ⊢
      cases hrest with
      | refused a hcycle => exact .refused a hcycle
      | done after hafter hmore' hstarts hknown'' hexplored'' =>
        refine .done after (hafter.trans hbetween) (hmore.trans hmore') ?_ hknown'' hexplored''
        exact List.forall_mem_cons.2 ⟨hmore' (hstart start (List.mem_singleton_self _)), hstarts⟩

/-- **A visit ends, or has found a cycle**, where all targets are known and there are frames for what is not being
visited yet. -/
theorem searched_visit (htargets : ∀ a ∈ known, ∃ targets, next a = some targets ∧ ∀ b ∈ targets, b ∈ known)
    (ha : a ∈ known) (hframes : (known \ marks.visiting).card < frames) (hbegun : Begun next marks.visiting a)
    (hknown : marks.visited ⊆ known) (hexplored : Explored next marks.visited) :
    Searched next known marks [a] (visit next frames marks a) := by
  induction frames generalizing marks a with
  | zero => exact absurd hframes (Nat.not_lt_zero _)
  | succ frames ih =>
    rw [visit]
    by_cases hvisited : a ∈ marks.visited
    · rw [if_pos hvisited]
      exact .done marks rfl subset_rfl (fun b hb ↦ List.mem_singleton.1 hb ▸ hvisited) hknown hexplored
    rw [if_neg hvisited]
    by_cases hvisiting : a ∈ marks.visiting
    · rw [if_pos hvisiting]
      exact .refused a (hbegun a hvisiting)
    rw [if_neg hvisiting]
    obtain ⟨targets, hnext, hmem⟩ := htargets a ha
    have hfewer : (known \ insert a marks.visiting).card < frames := by
      have hlt : (known \ insert a marks.visiting).card < (known \ marks.visiting).card := by
        refine Finset.card_lt_card (Finset.ssubset_iff_of_subset ?_ |>.2 ⟨a, ?_, ?_⟩)
        · exact Finset.sdiff_subset_sdiff subset_rfl (Finset.subset_insert a marks.visiting)
        · exact Finset.mem_sdiff.2 ⟨ha, hvisiting⟩
        · exact fun h ↦ (Finset.mem_sdiff.1 h).2 (Finset.mem_insert_self a _)
      omega
    have hnow : ∀ b ∈ targets, Begun next (insert a marks.visiting) b := by
      intro b hb c hc
      have hstep : LeadsTo next a b := ⟨targets, hnext, hb⟩
      rcases Finset.mem_insert.1 hc with rfl | hc
      · exact .single hstep
      · exact (hbegun c hc).tail hstep
    have hloop : Searched next known { marks with visiting := insert a marks.visiting } targets
        (visitAll next frames { marks with visiting := insert a marks.visiting } targets) :=
      searched_visitAll { marks with visiting := insert a marks.visiting }
        (fun between b hb hknown hexplored hsame ↦
          ih (hmem b hb) (by rwa [hsame]) (by rw [hsame]; exact hnow b hb) hknown hexplored)
        rfl hknown hexplored
    rw [hnext]
    dsimp only
    rw [← visitAll]
    generalize visitAll next frames _ targets = result at hloop ⊢
    cases hloop with
    | refused b hcycle => exact .refused b hcycle
    | done after hafter hmore hstarts hknown' hexplored' =>
      refine .done _ ?_ (hmore.trans (Finset.subset_insert a _)) ?_ ?_ (hexplored'.insert hnext hstarts)
      · dsimp only
        rw [hafter, Finset.erase_insert hvisiting]
      · intro b hb
        obtain rfl := List.mem_singleton.1 hb
        exact Finset.mem_insert_self b _
      · exact Finset.insert_subset ha hknown'

/-- **A search from all that is known ends with all of it visited, or has found a cycle.** -/
theorem visitAll_spec (htargets : ∀ a ∈ known, ∃ targets, next a = some targets ∧ ∀ b ∈ targets, b ∈ known)
    (hframes : known.card < frames) (hstarts : ∀ a, a ∈ starts ↔ a ∈ known) :
    (visitAll next frames ⟨∅, ∅⟩ starts = .ok ⟨∅, known⟩ ∧
        ∀ a ∈ known, ¬Relation.TransGen (LeadsTo next) a a) ∨
      ∃ a, Relation.TransGen (LeadsTo next) a a ∧ visitAll next frames ⟨∅, ∅⟩ starts = .error (.cycle a) := by
  have hsearch : Searched next known ⟨∅, ∅⟩ starts (visitAll next frames ⟨∅, ∅⟩ starts) := by
    refine searched_visitAll ⟨∅, ∅⟩ ?_ rfl (Finset.empty_subset _)
      ⟨fun _ h ↦ absurd h (Finset.notMem_empty _), fun _ h ↦ absurd h (Finset.notMem_empty _)⟩
    intro marks a ha hknown hexplored hnone
    refine searched_visit htargets ((hstarts a).1 ha) ?_ ?_ hknown hexplored
    · rwa [hnone, Finset.sdiff_empty]
    · rw [hnone]
      exact fun _ h ↦ absurd h (Finset.notMem_empty _)
  generalize visitAll next frames ⟨∅, ∅⟩ starts = result at hsearch ⊢
  cases hsearch with
  | refused a hcycle => exact .inr ⟨a, hcycle, rfl⟩
  | done marks' hvisiting _ hall hknown hexplored =>
    have hvisited : marks'.visited = known :=
      subset_antisymm hknown fun a ha ↦ hall a ((hstarts a).2 ha)
    have hmarks : marks' = ⟨∅, known⟩ := by
      obtain ⟨visiting, visited⟩ := marks'
      exact congrArg₂ Marks.mk hvisiting hvisited
    exact .inl ⟨congrArg Except.ok hmarks, hvisited ▸ hexplored.acyclic⟩

end Search
