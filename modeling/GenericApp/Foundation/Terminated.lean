import Mathlib.Data.List.Count
import Mathlib.Algebra.GroupWithZero.Nat
import Mathlib.Algebra.BigOperators.Group.List.Basic

/-!
# Words one after the other

A list of words is written down as one text by closing every word with a stop. As long as the stop
stands in no word, the text determines the words (`eq_of_terminated_eq`). A word with a stop in it is
read as two, and what follows from that is here as well: every text is the text of words without stops
(`exists_unstopped`), and where there are two words, one of them with a stop, other words, as many, have
the same text (`exists_ne_of_stop_mem`).
-/

universe u

section Terminated

variable {α : Type u} {stop : α}

/-- The text of the words. -/
def terminated (stop : α) (words : List (List α)) : List α := words.flatMap (· ++ [stop])

/-- No word has a stop in it. -/
def Unstopped (stop : α) (words : List (List α)) : Prop := ∀ w ∈ words, stop ∉ w

@[simp] theorem terminated_nil : terminated stop [] = [] := rfl

theorem terminated_cons (w : List α) (words : List (List α)) :
    terminated stop (w :: words) = w ++ stop :: terminated stop words := by
  show (w ++ [stop]) ++ terminated stop words = _
  rw [List.append_assoc, List.singleton_append]

theorem terminated_append (front back : List (List α)) :
    terminated stop (front ++ back) = terminated stop front ++ terminated stop back :=
  List.flatMap_append

/-! ### Reading the words -/

/-- The first word ends at the first stop. -/
theorem eq_of_append_stop {w v x y : List α} (hw : stop ∉ w) (hv : stop ∉ v)
    (h : w ++ stop :: x = v ++ stop :: y) : w = v ∧ x = y := by
  induction w generalizing v with
  | nil =>
    rcases v with - | ⟨c, v⟩
    · exact ⟨rfl, (List.cons.inj h).2⟩
    · exact absurd ((List.cons.inj h).1 ▸ List.mem_cons_self) hv
  | cons c w ih =>
    rcases v with - | ⟨d, v⟩
    · exact absurd ((List.cons.inj h).1 ▸ List.mem_cons_self) hw
    · obtain ⟨rfl, htail⟩ := List.cons.inj h
      obtain ⟨rfl, rfl⟩ := ih (fun hmem ↦ hw (List.mem_cons_of_mem c hmem))
        (fun hmem ↦ hv (List.mem_cons_of_mem c hmem)) htail
      exact ⟨rfl, rfl⟩

/-- **The text determines the words.** -/
theorem eq_of_terminated_eq {words others : List (List α)} (hwords : Unstopped stop words)
    (hothers : Unstopped stop others) (h : terminated stop words = terminated stop others) :
    words = others := by
  induction words generalizing others with
  | nil =>
    rcases others with - | ⟨v, others⟩
    · rfl
    · rw [terminated_cons, terminated_nil] at h
      exact absurd h.symm (List.append_ne_nil_of_right_ne_nil v (List.cons_ne_nil _ _))
  | cons w words ih =>
    rcases others with - | ⟨v, others⟩
    · rw [terminated_cons, terminated_nil] at h
      exact absurd h (List.append_ne_nil_of_right_ne_nil w (List.cons_ne_nil _ _))
    · rw [terminated_cons, terminated_cons] at h
      obtain ⟨rfl, hrest⟩ := eq_of_append_stop (hwords w List.mem_cons_self)
        (hothers v List.mem_cons_self) h
      rw [ih (fun w hw ↦ hwords w (List.mem_cons_of_mem _ hw))
        (fun v hv ↦ hothers v (List.mem_cons_of_mem _ hv)) hrest]

/-- One stop for each word, and those within the words. -/
theorem count_terminated [DecidableEq α] (words : List (List α)) :
    (terminated stop words).count stop = (words.map (List.count stop)).sum + words.length := by
  induction words with
  | nil => rfl
  | cons w words ih =>
    rw [terminated_cons, List.count_append, List.count_cons_self, ih, List.map_cons, List.sum_cons,
      List.length_cons]
    omega

/-- Words without stops are determined among all lists of as many words. -/
theorem unstopped_of_terminated_eq [DecidableEq α] {words others : List (List α)}
    (hwords : Unstopped stop words) (hlength : others.length = words.length)
    (h : terminated stop words = terminated stop others) : Unstopped stop others := by
  have hnone : (words.map (List.count stop)).sum = 0 := by
    rw [List.sum_eq_zero_iff_forall_eq_nat]
    intro n hn
    obtain ⟨w, hw, rfl⟩ := List.mem_map.1 hn
    exact List.count_eq_zero.2 (hwords w hw)
  have hcount := congrArg (List.count stop) h
  rw [count_terminated, count_terminated, hnone, hlength] at hcount
  have hothers : (others.map (List.count stop)).sum = 0 := by omega
  intro v hv
  rw [List.sum_eq_zero_iff_forall_eq_nat] at hothers
  exact List.count_eq_zero.1 (hothers _ (List.mem_map_of_mem hv))

/-! ### Words with stops in them -/

/-- A stop in a word makes two words of it. -/
theorem terminated_cut (front back : List (List α)) (x y : List α) :
    terminated stop (front ++ (x ++ stop :: y) :: back) =
      terminated stop (front ++ x :: y :: back) := by
  rw [terminated_append, terminated_append, terminated_cons, terminated_cons, terminated_cons,
    List.append_assoc, List.cons_append]

/-- A closed word is a text of words without stops. -/
theorem exists_unstopped_word (stop : α) (w : List α) :
    ∃ words, Unstopped stop words ∧ terminated stop words = w ++ [stop] := by
  classical
  induction w with
  | nil => exact ⟨[[]], fun w hw ↦ List.mem_singleton.1 hw ▸ List.not_mem_nil, rfl⟩
  | cons c w ih =>
    obtain ⟨words, hwords, htext⟩ := ih
    rcases eq_or_ne c stop with rfl | hne
    · refine ⟨[] :: words, fun w hw ↦ ?_, ?_⟩
      · rcases List.mem_cons.1 hw with rfl | hw
        · exact List.not_mem_nil
        · exact hwords w hw
      · rw [terminated_cons, htext]
        rfl
    · rcases words with - | ⟨v, words⟩
      · exact absurd htext.symm (List.append_ne_nil_of_right_ne_nil w (List.cons_ne_nil _ _))
      · refine ⟨(c :: v) :: words, fun w hw ↦ ?_, ?_⟩
        · rcases List.mem_cons.1 hw with rfl | hw
          · intro hmem
            rcases List.mem_cons.1 hmem with heq | hmem
            · exact hne heq.symm
            · exact hwords v List.mem_cons_self hmem
          · exact hwords w (List.mem_cons_of_mem v hw)
        · rw [terminated_cons] at htext ⊢
          rw [List.cons_append, htext]
          rfl

/-- **Every text is one of words without stops.** -/
theorem exists_unstopped (stop : α) (words : List (List α)) :
    ∃ others, Unstopped stop others ∧ terminated stop others = terminated stop words := by
  induction words with
  | nil => exact ⟨[], fun _ hw ↦ absurd hw List.not_mem_nil, rfl⟩
  | cons w words ih =>
    obtain ⟨front, hfront, hw⟩ := exists_unstopped_word stop w
    obtain ⟨back, hback, hrest⟩ := ih
    refine ⟨front ++ back, fun v hv ↦ (List.mem_append.1 hv).elim (hfront v) (hback v), ?_⟩
    rw [terminated_append, hw, hrest, terminated_cons, List.append_assoc, List.singleton_append]

/-- **Two words, one of them with a stop, are not the only ones with their text**: the stop may stand
in the word beside it. -/
theorem exists_ne_of_stop_mem {words : List (List α)} (hlength : 2 ≤ words.length)
    (hstop : ¬ Unstopped stop words) :
    ∃ others, others.length = words.length ∧ others ≠ words ∧
      terminated stop others = terminated stop words := by
  obtain ⟨w, hmem, hw⟩ : ∃ w ∈ words, stop ∈ w := by simpa [Unstopped] using hstop
  obtain ⟨front, back, rfl⟩ := List.append_of_mem hmem
  obtain ⟨x, y, rfl⟩ := List.append_of_mem hw
  have hcut : terminated stop _ = _ := terminated_cut front back x y
  rcases back with - | ⟨v, back⟩
  · -- It is the last word: the stop goes to the one before.
    obtain rfl | ⟨front, u, rfl⟩ := List.eq_nil_or_concat' front
    · simp at hlength
    · refine ⟨front ++ (u ++ stop :: x) :: [y], by simp, fun heq ↦ ?_, ?_⟩
      · rw [List.append_assoc] at heq
        have hu := (List.cons.inj (List.append_cancel_left heq)).1
        exact List.append_ne_nil_of_right_ne_nil [] (List.cons_ne_nil _ _)
          (List.append_cancel_left (hu.trans (List.append_nil u).symm))
      · rw [hcut, terminated_cut front [y] u x, List.append_assoc]
        rfl
  · refine ⟨front ++ x :: (y ++ stop :: v) :: back, by simp, fun heq ↦ ?_, ?_⟩
    · have hx := (List.cons.inj (List.append_cancel_left heq)).1
      exact List.cons_ne_nil _ _ (List.append_cancel_left (hx.symm.trans (List.append_nil x).symm))
    · rw [hcut, ← List.singleton_append, ← List.append_assoc, terminated_cut (front ++ [x]) back y v,
        List.append_assoc]
      rfl

end Terminated
