import GenericApp.Rag.Promotion

/-!
# Retention and promotion, side by side

`cleanup_retired_versions` reads the versions whose retention is over, deletes the chunks of one after
the other, and commits. `rollback` locks the row of a retired version, counts its chunks, and makes it
active. The clean-up takes no lock on the rows that it reads, and the count takes none on the chunks, so
under READ COMMITTED each can miss what the other is about to do. Here both run statement by statement,
any number of them at a time, along with the activations, from any relation and any chunks.

A statement sees what is committed; what it writes is seen by the others when its transaction commits. A
row lock is held until then, and a transaction that wants it has to wait: the step is not enabled.
`serving` is not part of the program. It is the version that the last promotion has rolled back to, with
the chunks that were counted.

* `rollback_eq`, `activate_eq`: a promotion that runs on its own is the request of `IndexVersions`.
* `retention_spares_active`: if no rollback counts chunks while a clean-up that has read the version is
  in flight, and none has counted them when a clean-up reads it, active versions keep their chunks.
* `retention_empties_active`: both ways in which they lose them.
-/

namespace GenericApp

open Machine Py

/-! ### The checks of a promotion -/

/-- What `rollback` checks of the row that it has locked, and whether there is anything to do. -/
def checkRollback (row : RagIndexVersion) (chunkCount : ℕ) : Except HttpError Bool :=
  if row.status = .active then .ok false
  else if row.status ≠ .retired then
    .error ⟨422, "Rollback requires a retired version (got " ++ row.status.quoted ++ ")"⟩
  else
    match assertDimensionsCompatible row.embeddingDimensions with
    | .error e => .error e
    | .ok () =>
      if chunkCount < 1 then .error ⟨422, "Cannot rollback to a version with no remaining chunks"⟩
      else .ok true

/-- What `activate` checks of the row that it has locked, and whether there is anything to do. -/
def checkActivate (row : RagIndexVersion) (counts : PromotionCounts) : Except HttpError Bool :=
  if row.status = .active then .ok false
  else
    match assertTransition row.status .active with
    | .error e => .error e
    | .ok () =>
      if row.status ≠ .validated ∨ row.validatedAt = none then
        .error ⟨422, "Only validated index versions can be activated"⟩
      else if readyForActivation row counts then .ok true
      else .error ⟨422, "Index version failed promotion criteria"⟩

/-- The lock, the checks and the promotion. -/
def promoteChecked (T : VersionTable) (versionId : Uuid) (check : RagIndexVersion → Except HttpError Bool)
    (now : DateTime) : Except HttpError VersionTable :=
  match lockVersion T versionId with
  | .error e => .error e
  | .ok row =>
    match check row with
    | .error e => .error e
    | .ok false => .ok T
    | .ok true => promote T versionId now

/-- **A rollback that runs on its own.** -/
theorem rollback_eq (T : VersionTable) (versionId : Uuid) (chunkCount : ℕ) (now : DateTime) :
    rollback T versionId chunkCount now =
      promoteChecked T versionId (fun row ↦ checkRollback row chunkCount) now := by
  rw [rollback, promoteChecked]
  rcases lockVersion T versionId with e | row
  · rfl
  · dsimp only
    rw [checkRollback]
    by_cases hactive : row.status = .active
    · rw [if_pos hactive, if_pos hactive]
    · rw [if_neg hactive, if_neg hactive]
      by_cases hretired : row.status ≠ .retired
      · rw [if_pos hretired, if_pos hretired]
      · rw [if_neg hretired, if_neg hretired]
        rcases assertDimensionsCompatible row.embeddingDimensions with e | u
        · rfl
        · dsimp only
          split <;> rfl

/-- **An activation that runs on its own.** -/
theorem activate_eq (T : VersionTable) (versionId : Uuid) (counts : PromotionCounts) (now : DateTime) :
    activate T versionId counts now =
      promoteChecked T versionId (fun row ↦ checkActivate row counts) now := by
  rw [activate, promoteChecked]
  rcases lockVersion T versionId with e | row
  · rfl
  · dsimp only
    rw [checkActivate]
    by_cases hactive : row.status = .active
    · rw [if_pos hactive, if_pos hactive]
    · rw [if_neg hactive, if_neg hactive]
      rcases assertTransition row.status .active with e | u
      · rfl
      · dsimp only
        split
        · rfl
        · split <;> rfl

/-- Only a retired version is rolled back to. -/
theorem retired_of_checkRollback {row : RagIndexVersion} {chunkCount : ℕ}
    (h : checkRollback row chunkCount = .ok true) : row.status = .retired := by
  rw [checkRollback] at h
  split at h
  · exact nomatch h
  · split at h
    · exact nomatch h
    · next hretired => exact not_not.1 hretired

/-- Only a validated version is activated. -/
theorem validated_of_checkActivate {row : RagIndexVersion} {counts : PromotionCounts}
    (h : checkActivate row counts = .ok true) : row.status = .validated := by
  rw [checkActivate] at h
  split at h
  · exact nomatch h
  · split at h
    · exact nomatch h
    · split at h
      · exact nomatch h
      · next hvalidated => exact not_not.1 (not_or.1 hvalidated).1

/-! ### Transactions in flight -/

/-- A clean-up: the versions that it has read, those whose chunks it has still to delete, and the chunks
that it has deleted. -/
structure Cleanup where
  listed : List Uuid
  remaining : List Uuid
  deleted : List RagChunk

/-- A promotion: the row that it has locked and the other locks, and, once it has passed the checks, the
chunks that a rollback has counted. -/
inductive Promotion
  | locked (row : RagIndexVersion) (locks : List Uuid)
  | checked (row : RagIndexVersion) (locks : List Uuid) (counted : Option (List RagChunk))

/-- The row to promote. -/
def Promotion.row : Promotion → RagIndexVersion
  | locked row _ | checked row _ _ => row

/-- The rows it has locked. -/
def Promotion.locks : Promotion → List Uuid
  | locked row locks | checked row locks _ => row.id :: locks

/-- The version whose chunks a rollback has counted. -/
def Promotion.counting : Promotion → Option Uuid
  | checked row _ (some _) => some row.id
  | _ => none

/-- The relations, and the transactions in flight; one that is over has left `none` behind. -/
structure Retention where
  versions : VersionTable
  chunks : List RagChunk
  cleanups : List (Option Cleanup)
  promotions : List (Option Promotion)
  serving : Option (Uuid × List RagChunk)

/-- The statements, and the ends of the transactions. -/
inductive RetentionAction
  | readRetired (cutoff : DateTime)
  | deleteChunks (k : ℕ)
  | commitCleanup (k : ℕ)
  | abortCleanup (k : ℕ)
  | lockVersion (versionId : Uuid)
  | checkRollback (p : ℕ)
  | checkActivate (p : ℕ) (counts : PromotionCounts)
  | commitPromotion (p : ℕ) (now : DateTime)
  | abortPromotion (p : ℕ)

namespace Retention

/-- The retired versions whose retention is over. -/
def expired (T : VersionTable) (cutoff : DateTime) : List Uuid :=
  (T.rows.filter fun v ↦ v.status = .retired ∧ v.retiredAt.any (· < cutoff)).map (·.id)

/-- The active versions. -/
def activeIds (T : VersionTable) : List Uuid := (T.rows.filter fun v ↦ v.status = .active).map (·.id)

/-- The chunks of a version. -/
def chunksOf (s : Retention) (versionId : Uuid) : List RagChunk :=
  s.chunks.filter fun c ↦ c.indexVersionId = versionId

/-- Nobody but promotion `p` has one of the rows locked. -/
def unlocked (s : Retention) (p : ℕ) (ids : List Uuid) : Bool :=
  ids.all fun id ↦ (s.promotions.set p none).all fun q ↦ q.all fun q ↦ !q.locks.contains id

/-- The cleanup of index `k`. -/
def setCleanup (s : Retention) (k : ℕ) (c : Option Cleanup) : Retention :=
  { s with cleanups := s.cleanups.set k c }

/-- The promotion of index `p`. -/
def setPromotion (s : Retention) (p : ℕ) (q : Option Promotion) : Retention :=
  { s with promotions := s.promotions.set p q }

/-- The promotion goes on if the checks say so, and is over otherwise. -/
def check (s : Retention) (p : ℕ) (row : RagIndexVersion) (locks : List Uuid)
    (counted : Option (List RagChunk)) (result : Except HttpError Bool) : Retention :=
  match result with
  | .ok true => s.setPromotion p (some (.checked row locks counted))
  | _ => s.setPromotion p none

end Retention

/-- One statement, or the end of a transaction. -/
def retentionStep (s : Retention) : RetentionAction → Option Retention
  | .readRetired cutoff => some { s with cleanups := s.cleanups ++
      [some ⟨Retention.expired s.versions cutoff, Retention.expired s.versions cutoff, []⟩] }
  | .deleteChunks k =>
    match s.cleanups[k]? with
    | some (some ⟨listed, v :: vs, deleted⟩) =>
      some (s.setCleanup k (some ⟨listed, vs, deleted ++ s.chunksOf v⟩))
    | _ => none
  | .commitCleanup k =>
    match s.cleanups[k]? with
    | some (some ⟨_, [], deleted⟩) =>
      some { s.setCleanup k none with chunks := s.chunks.filter fun c ↦ c ∉ deleted }
    | _ => none
  | .abortCleanup k =>
    match s.cleanups[k]? with
    | some (some _) => some (s.setCleanup k none)
    | _ => none
  | .lockVersion versionId =>
    match s.versions.find (byVersionId versionId) with
    | some row =>
      let locks := Retention.activeIds s.versions
      if s.unlocked s.promotions.length (row.id :: locks) then
        some { s with promotions := s.promotions ++ [some (.locked row locks)] }
      else none
    | none => some s
  | .checkRollback p =>
    match s.promotions[p]? with
    | some (some (.locked row locks)) =>
      some (s.check p row locks (some (s.chunksOf row.id))
        (checkRollback row (s.chunksOf row.id).length))
    | _ => none
  | .checkActivate p counts =>
    match s.promotions[p]? with
    | some (some (.locked row locks)) => some (s.check p row locks none (checkActivate row counts))
    | _ => none
  | .commitPromotion p now =>
    match s.promotions[p]? with
    | some (some (.checked row _ counted)) =>
      if s.unlocked p (Retention.activeIds s.versions) then
        match promote s.versions row.id now with
        | .ok T => some { s.setPromotion p none with
            versions := T, serving := counted.map fun chunks ↦ (row.id, chunks) }
        | .error _ => some (s.setPromotion p none)
      else none
    | _ => none
  | .abortPromotion p =>
    match s.promotions[p]? with
    | some (some _) => some (s.setPromotion p none)
    | _ => none

/-- The transactions, over any relations. -/
def retentionMachine : Machine Retention RetentionAction where
  init s := s.cleanups = [] ∧ s.promotions = [] ∧ s.serving = none
  step := retentionStep

/-- Clean-ups and rollbacks of the same version keep apart. -/
def KeepApart (s : Retention) : RetentionAction → Prop
  | .readRetired cutoff =>
    ∀ q ∈ s.promotions, ∀ v ∈ q.bind Promotion.counting, v ∉ Retention.expired s.versions cutoff
  | .checkRollback p => ∀ q ∈ (s.promotions[p]?).join, ∀ c ∈ s.cleanups, ∀ d ∈ c, q.row.id ∉ d.listed
  | _ => True

instance (s : Retention) (a : RetentionAction) : Decidable (KeepApart s a) :=
  match a with
  | .readRetired cutoff => inferInstanceAs (Decidable (∀ q ∈ s.promotions,
      ∀ v ∈ q.bind Promotion.counting, v ∉ Retention.expired s.versions cutoff))
  | .checkRollback p => inferInstanceAs (Decidable (∀ q ∈ (s.promotions[p]?).join, ∀ c ∈ s.cleanups,
      ∀ d ∈ c, q.row.id ∉ d.listed))
  | .deleteChunks _ | .commitCleanup _ | .abortCleanup _ | .lockVersion _ | .checkActivate .. |
    .commitPromotion .. | .abortPromotion _ => isTrue trivial

/-! ### The invariant -/

/-- A clean-up is in flight. -/
def Retention.Cleaning (s : Retention) (c : Cleanup) : Prop := ∃ k : ℕ, s.cleanups[k]? = some (some c)

/-- A promotion is in flight. -/
def Retention.Promoting (s : Retention) (q : Promotion) : Prop :=
  ∃ p : ℕ, s.promotions[p]? = some (some q)

/-- What the induction carries. `apart` is what the condition gives; it needs `current` and `exclusive`
to say that what a clean-up has read is still so. -/
structure Retention.Kept (s : Retention) : Prop where
  /-- A row that is locked is as it was, unless it was active. -/
  current : ∀ q, s.Promoting q → q.row.status ≠ .active →
    s.versions.find (byVersionId q.row.id) = some q.row
  /-- No two promotions are about the same row. -/
  exclusive : ∀ (i j : ℕ) (q r : Promotion), s.promotions[i]? = some (some q) →
    s.promotions[j]? = some (some r) → q.row.id = r.row.id → i = j
  /-- What a promotion has checked. -/
  checked : ∀ row locks counted, s.Promoting (.checked row locks counted) →
    row.status = (if counted.isSome then .retired else .validated)
  /-- The chunks that are counted are there. -/
  counted : ∀ row locks chunks, s.Promoting (.checked row locks (some chunks)) →
    ∀ c ∈ chunks, c.indexVersionId = row.id ∧ c ∈ s.chunks
  /-- The versions that a clean-up has read are retired. -/
  retired : ∀ c, s.Cleaning c → ∀ v ∈ c.listed, ∀ row,
    s.versions.find (byVersionId v) = some row → row.status = .retired
  /-- A clean-up deletes chunks of the versions that it has read. -/
  listed : ∀ c, s.Cleaning c → (∀ v ∈ c.remaining, v ∈ c.listed) ∧
    ∀ x ∈ c.deleted, x.indexVersionId ∈ c.listed
  /-- No rollback has counted the chunks of a version that a clean-up has read. -/
  apart : ∀ q, s.Promoting q → ∀ v ∈ q.counting, ∀ c, s.Cleaning c → v ∉ c.listed
  /-- The version rolled back to is active, and has its chunks. -/
  serving : ∀ v chunks, s.serving = some (v, chunks) →
    (∃ row, s.versions.find (byVersionId v) = some row ∧ row.status = .active) ∧
      ∀ c ∈ chunks, c.indexVersionId = v ∧ c ∈ s.chunks

namespace Retention

variable {s t : Retention} {T : VersionTable}

/-- What the invariant asks of one promotion. -/
structure PromotionKept (s : Retention) (q : Promotion) : Prop where
  current : q.row.status ≠ .active → s.versions.find (byVersionId q.row.id) = some q.row
  checked : ∀ row locks counted, q = .checked row locks counted →
    row.status = (if counted.isSome then .retired else .validated)
  counted : ∀ row locks chunks, q = .checked row locks (some chunks) →
    ∀ c ∈ chunks, c.indexVersionId = row.id ∧ c ∈ s.chunks
  apart : ∀ v ∈ q.counting, ∀ c, s.Cleaning c → v ∉ c.listed

theorem Kept.promotion (h : s.Kept) {q : Promotion} (hq : s.Promoting q) : s.PromotionKept q where
  current := h.current q hq
  checked row locks counted heq := h.checked row locks counted (heq ▸ hq)
  counted row locks chunks heq := h.counted row locks chunks (heq ▸ hq)
  apart := h.apart q hq

/-- A step that changes the promotions only. -/
theorem Kept.setPromotions (h : s.Kept) {ps : List (Option Promotion)}
    (hps : ∀ (j : ℕ) (q : Promotion), ps[j]? = some (some q) → s.PromotionKept q)
    (hexclusive : ∀ (i j : ℕ) (q r : Promotion), ps[i]? = some (some q) → ps[j]? = some (some r) →
      q.row.id = r.row.id → i = j) : Kept { s with promotions := ps } where
  current := fun q ⟨j, hj⟩ ↦ (hps j q hj).current
  exclusive := hexclusive
  checked := fun row locks counted ⟨j, hj⟩ ↦ (hps j _ hj).checked row locks counted rfl
  counted := fun row locks chunks ⟨j, hj⟩ ↦ (hps j _ hj).counted row locks chunks rfl
  retired := h.retired
  listed := h.listed
  apart := fun q ⟨j, hj⟩ ↦ (hps j q hj).apart
  serving := h.serving

/-- A promotion is over, or goes on about the same row. -/
theorem Kept.setPromotion (h : s.Kept) {p : ℕ} {q : Promotion} (hq : s.promotions[p]? = some (some q))
    {x : Option Promotion} (hx : ∀ q', x = some q' → q'.row.id = q.row.id ∧ s.PromotionKept q') :
    (s.setPromotion p x).Kept := by
  refine h.setPromotions (fun j r hj ↦ ?_) fun i j r r' hi hj hid ↦ ?_
  · rcases slot_of_set hj with ⟨-, hx'⟩ | ⟨-, hj⟩
    · exact (hx r hx'.symm).2
    · exact h.promotion ⟨j, hj⟩
  · rcases slot_of_set hi with ⟨hip, hr⟩ | ⟨-, hi'⟩ <;>
      rcases slot_of_set hj with ⟨hjp, hr'⟩ | ⟨-, hj'⟩
    · exact hip.trans hjp.symm
    · exact hip.trans (h.exclusive _ _ _ _ hq hj' ((hx r hr.symm).1.symm.trans hid))
    · exact (h.exclusive _ _ _ _ hi' hq (hid.trans (hx r' hr'.symm).1)).trans hjp.symm
    · exact h.exclusive _ _ _ _ hi' hj' hid

/-- A step that changes the clean-ups only. -/
theorem Kept.setCleanups (h : s.Kept) {cs : List (Option Cleanup)}
    (hcs : ∀ (j : ℕ) (c : Cleanup), cs[j]? = some (some c) →
      (∀ v ∈ c.listed, ∀ row, s.versions.find (byVersionId v) = some row → row.status = .retired) ∧
      ((∀ v ∈ c.remaining, v ∈ c.listed) ∧ ∀ x ∈ c.deleted, x.indexVersionId ∈ c.listed) ∧
      ∀ q, s.Promoting q → ∀ v ∈ q.counting, v ∉ c.listed) : Kept { s with cleanups := cs } where
  current := h.current
  exclusive := h.exclusive
  checked := h.checked
  counted := h.counted
  retired := fun c ⟨j, hj⟩ ↦ (hcs j c hj).1
  listed := fun c ⟨j, hj⟩ ↦ (hcs j c hj).2.1
  apart := fun q hq v hv c ⟨j, hj⟩ ↦ (hcs j c hj).2.2 q hq v hv
  serving := h.serving

/-- A clean-up is over, or goes on about the same versions. -/
theorem Kept.setCleanup (h : s.Kept) {k : ℕ} {c : Cleanup} (hc : s.cleanups[k]? = some (some c))
    {x : Option Cleanup} (hx : ∀ c', x = some c' → c'.listed = c.listed ∧
      (∀ v ∈ c'.remaining, v ∈ c.listed) ∧ ∀ y ∈ c'.deleted, y.indexVersionId ∈ c.listed) :
    (s.setCleanup k x).Kept := by
  refine h.setCleanups fun j d hj ↦ ?_
  rcases slot_of_set hj with ⟨-, hd⟩ | ⟨-, hj⟩
  · obtain ⟨hlisted, hremaining, hdeleted⟩ := hx d hd.symm
    rw [hlisted]
    exact ⟨h.retired c ⟨k, hc⟩, ⟨hremaining, hdeleted⟩, fun q hq v hv ↦ h.apart q hq v hv c ⟨k, hc⟩⟩
  · exact ⟨h.retired d ⟨j, hj⟩, h.listed d ⟨j, hj⟩, fun q hq v hv ↦ h.apart q hq v hv d ⟨j, hj⟩⟩

/-- **A clean-up commits.** None of the chunks it deletes has been counted, or belongs to an active
version. -/
theorem Kept.commitCleanup (h : s.Kept) {k : ℕ} {c : Cleanup} (hc : s.cleanups[k]? = some (some c)) :
    Kept { s.setCleanup k none with chunks := s.chunks.filter fun x ↦ x ∉ c.deleted } := by
  have hover : (s.setCleanup k none).Kept := h.setCleanup hc fun _ h ↦ nomatch h
  have hkeep : ∀ x ∈ s.chunks, x.indexVersionId ∉ c.listed →
      x ∈ s.chunks.filter fun x ↦ x ∉ c.deleted := fun x hx hnot ↦
    List.mem_filter.2 ⟨hx, decide_eq_true fun hdel ↦ hnot ((h.listed c ⟨k, hc⟩).2 x hdel)⟩
  refine ⟨hover.current, hover.exclusive, hover.checked, fun row locks chunks hq x hx ↦ ?_,
    hover.retired, hover.listed, hover.apart, fun v chunks hv ↦ ?_⟩
  · obtain ⟨hid, hmem⟩ := h.counted row locks chunks hq x hx
    refine ⟨hid, hkeep x hmem ?_⟩
    rw [hid]
    exact h.apart _ hq row.id rfl c ⟨k, hc⟩
  · obtain ⟨⟨row, hrow, hactive⟩, hchunks⟩ := h.serving v chunks hv
    refine ⟨⟨row, hrow, hactive⟩, fun x hx ↦ ⟨(hchunks x hx).1, hkeep x (hchunks x hx).2 fun hlisted ↦ ?_⟩⟩
    rw [(hchunks x hx).1] at hlisted
    have hretired := h.retired c ⟨k, hc⟩ v hlisted row hrow
    rw [hactive] at hretired
    exact nomatch hretired

/-- **A promotion commits.** What a clean-up has read is not the row that it promotes. -/
theorem Kept.commitPromotion (h : s.Kept) {p : ℕ} {row : RagIndexVersion} {locks : List Uuid}
    {counted : Option (List RagChunk)} {now : DateTime}
    (hq : s.promotions[p]? = some (some (.checked row locks counted)))
    (hok : promote s.versions row.id now = .ok T) :
    Kept { s.setPromotion p none with
      versions := T, serving := counted.map fun chunks ↦ (row.id, chunks) } := by
  have hover : (s.setPromotion p none).Kept := h.setPromotion hq fun _ h ↦ by cases h
  have hstatus := h.checked row locks counted ⟨p, hq⟩
  have hinactive : row.status ≠ .active := by
    rw [hstatus]
    split <;> decide
  have hcurrent := h.current _ ⟨p, hq⟩ hinactive
  have hother : ∀ v r, v ≠ row.id → r.status ≠ .active → s.versions.find (byVersionId v) = some r →
      T.find (byVersionId v) = some r := fun v r hne hr hfind ↦ by
    have hid : r.id = v := (byVersionId_ident _ _).1 (Table.sel_of_find hfind)
    rw [find_of_promote hok, hfind, Option.map_some, promoteRow, if_neg (hid ▸ hne), if_neg hr]
  refine ⟨fun q hslot hne ↦ ?_, hover.exclusive, hover.checked, hover.counted, fun c hc v hv r hr ↦ ?_,
    hover.listed, hover.apart, fun v chunks hv ↦ ?_⟩
  · obtain ⟨j, hj⟩ := hslot
    rcases slot_of_set hj with ⟨-, hx⟩ | ⟨hjp, hj⟩
    · cases hx
    · exact hother _ _ (fun hid ↦ hjp (h.exclusive _ _ _ _ hj hq hid)) hne (h.current q ⟨j, hj⟩ hne)
  · rw [find_of_promote hok] at hr
    obtain ⟨r₀, hr₀, rfl⟩ := Option.map_eq_some_iff.1 hr
    have hretired := h.retired c hc v hv r₀ hr₀
    have hid : r₀.id = v := (byVersionId_ident _ _).1 (Table.sel_of_find hr₀)
    have hne : r₀.id ≠ row.id := fun heq ↦ by
      obtain rfl : r₀ = row := Option.some.inj (hr₀.symm.trans (hid.symm.trans heq ▸ hcurrent))
      -- The row is retired, so its chunks have been counted.
      rcases counted with - | chunks
      · rw [hretired] at hstatus
        cases hstatus
      · exact h.apart _ ⟨p, hq⟩ r₀.id rfl c hc (hid ▸ hv)
    rw [promoteRow, if_neg hne, if_neg (by rw [hretired]; decide)]
    exact hretired
  · obtain ⟨chunks', rfl, hpair⟩ := Option.map_eq_some_iff.1 hv
    obtain ⟨rfl, rfl⟩ := Prod.mk.inj hpair
    refine ⟨⟨promoteRow row.id now row, ?_, ?_⟩, h.counted row locks chunks' ⟨p, hq⟩⟩
    · rw [find_of_promote hok]
      exact congrArg (Option.map (promoteRow row.id now)) hcurrent
    · rw [promoteRow, if_pos rfl]

theorem mem_expired {cutoff : DateTime} {v : Uuid} {row : RagIndexVersion} (h : v ∈ expired T cutoff)
    (hrow : T.find (byVersionId v) = some row) : row.status = .retired := by
  obtain ⟨r, hr, rfl⟩ := List.mem_map.1 h
  have hr' := List.mem_filter.1 hr
  obtain rfl : r = row := Option.some.inj ((find_self hr'.1).symm.trans hrow)
  exact (of_decide_eq_true hr'.2).1

theorem Kept.readRetired (h : s.Kept) {cutoff : DateTime} (hC : KeepApart s (.readRetired cutoff)) :
    Kept { s with cleanups := s.cleanups ++
      [some ⟨expired s.versions cutoff, expired s.versions cutoff, []⟩] } := by
  refine h.setCleanups fun j c hj ↦ ?_
  rcases slot_of_append hj with ⟨-, hc⟩ | ⟨-, hj⟩
  · obtain rfl := Option.some.inj hc
    refine ⟨fun v hv row hrow ↦ mem_expired hv hrow, ⟨fun v hv ↦ hv, fun x hx ↦ nomatch hx⟩, ?_⟩
    rintro q ⟨i, hi⟩ v hv
    exact hC (some q) (List.mem_of_getElem? hi) v hv
  · exact ⟨h.retired c ⟨j, hj⟩, h.listed c ⟨j, hj⟩, fun q hq v hv ↦ h.apart q hq v hv c ⟨j, hj⟩⟩

theorem Kept.lock (h : s.Kept) {row : RagIndexVersion} {locks : List Uuid}
    (hrow : s.versions.find (byVersionId row.id) = some row)
    (hfree : s.unlocked s.promotions.length (row.id :: locks) = true) :
    Kept { s with promotions := s.promotions ++ [some (.locked row locks)] } := by
  -- The other promotions are about other rows, for they have theirs locked.
  have hfresh : ∀ (j : ℕ) (q : Promotion), s.promotions[j]? = some (some q) → q.row.id ≠ row.id := by
    intro j q hj hid
    have hfree' := List.all_eq_true.1 hfree row.id List.mem_cons_self
    rw [List.set_eq_of_length_le (Nat.le_refl _)] at hfree'
    have hq := List.all_eq_true.1 hfree' (some q) (List.mem_of_getElem? hj)
    rw [Option.all_some, ← hid] at hq
    have hmem : q.row.id ∈ q.locks := by
      match q with
      | .locked .. | .checked .. => exact List.mem_cons_self
    simp [hmem] at hq
  refine h.setPromotions (fun j q hj ↦ ?_) fun i j q r hi hj hid ↦ ?_
  · rcases slot_of_append hj with ⟨-, hq⟩ | ⟨-, hj⟩
    · obtain rfl := Option.some.inj hq
      exact ⟨fun _ ↦ hrow, fun _ _ _ h ↦ (nomatch h), fun _ _ _ h ↦ (nomatch h), fun v hv ↦ (nomatch hv)⟩
    · exact h.promotion ⟨j, hj⟩
  · rcases slot_of_append hi with ⟨hil, hq⟩ | ⟨-, hi'⟩ <;>
      rcases slot_of_append hj with ⟨hjl, hr⟩ | ⟨-, hj'⟩
    · exact hil.trans hjl.symm
    · obtain rfl := Option.some.inj hq
      exact absurd hid.symm (hfresh j r hj')
    · obtain rfl := Option.some.inj hr
      exact absurd hid (hfresh i q hi')
    · exact h.exclusive i j q r hi' hj' hid

/-- The checks of a promotion. -/
theorem Kept.check (h : s.Kept) {p : ℕ} {row : RagIndexVersion} {locks : List Uuid}
    (hq : s.promotions[p]? = some (some (.locked row locks))) {counted : Option (List RagChunk)}
    {result : Except HttpError Bool}
    (hstatus : result = .ok true → row.status = if counted.isSome then .retired else .validated)
    (hcounted : ∀ chunks, counted = some chunks → ∀ c ∈ chunks, c.indexVersionId = row.id ∧ c ∈ s.chunks)
    (hapart : counted.isSome = true → ∀ c, s.Cleaning c → row.id ∉ c.listed) :
    (s.check p row locks counted result).Kept := by
  have hcurrent := h.current _ ⟨p, hq⟩
  unfold Retention.check
  split
  · refine h.setPromotion hq fun q hq' ↦ ?_
    obtain rfl := Option.some.inj hq'
    refine ⟨rfl, hcurrent, ?_, ?_, ?_⟩
    · intro row' locks' counted' heq
      obtain ⟨rfl, rfl, rfl⟩ := Promotion.checked.inj heq
      exact hstatus rfl
    · intro row' locks' chunks heq
      obtain ⟨rfl, rfl, rfl⟩ := Promotion.checked.inj heq
      exact hcounted chunks rfl
    · intro v hv c hc
      rcases counted with - | chunks
      · exact nomatch hv
      · obtain rfl : row.id = v := Option.some.inj hv
        exact hapart rfl c hc
  · exact h.setPromotion hq fun _ h ↦ nomatch h

/-- **One statement.** -/
theorem Kept.step (h : s.Kept) {a : RetentionAction} (hC : KeepApart s a)
    (hstep : retentionStep s a = some t) : t.Kept := by
  match a with
  | .readRetired cutoff =>
    obtain rfl := Option.some.inj hstep
    exact h.readRetired hC
  | .deleteChunks k =>
    simp only [retentionStep] at hstep
    split at hstep
    · next listed v vs deleted hk =>
      obtain rfl := Option.some.inj hstep
      refine h.setCleanup hk fun c hc ↦ ?_
      obtain rfl := Option.some.inj hc
      obtain ⟨hremaining, hdeleted⟩ := h.listed _ ⟨k, hk⟩
      refine ⟨rfl, fun w hw ↦ hremaining w (List.mem_cons_of_mem _ hw), fun x hx ↦ ?_⟩
      rcases List.mem_append.1 hx with hx | hx
      · exact hdeleted x hx
      · rw [of_decide_eq_true (List.mem_filter.1 hx).2]
        exact hremaining v List.mem_cons_self
    · exact nomatch hstep
  | .commitCleanup k =>
    simp only [retentionStep] at hstep
    split at hstep
    · next hk =>
      obtain rfl := Option.some.inj hstep
      exact h.commitCleanup hk
    · exact nomatch hstep
  | .abortCleanup k =>
    simp only [retentionStep] at hstep
    split at hstep
    · next hk =>
      obtain rfl := Option.some.inj hstep
      exact h.setCleanup hk fun _ h ↦ nomatch h
    · exact nomatch hstep
  | .lockVersion versionId =>
    simp only [retentionStep] at hstep
    split at hstep
    · next row hrow =>
      split at hstep
      · next hfree =>
        obtain rfl := Option.some.inj hstep
        exact h.lock (find_self (Table.mem_of_find hrow)) hfree
      · exact nomatch hstep
    · obtain rfl := Option.some.inj hstep
      exact h
  | .checkRollback p =>
    simp only [retentionStep] at hstep
    split at hstep
    · next row locks hp =>
      obtain rfl := Option.some.inj hstep
      refine h.check hp (fun hok ↦ retired_of_checkRollback hok) (fun chunks hchunks c hc ↦ ?_) ?_
      · obtain rfl := Option.some.inj hchunks
        exact ⟨of_decide_eq_true (List.mem_filter.1 hc).2, (List.mem_filter.1 hc).1⟩
      · rintro - c ⟨k, hk⟩
        have hq : Promotion.locked row locks ∈ (s.promotions[p]?).join := by
          rw [hp]
          rfl
        exact hC _ hq (some c) (List.mem_of_getElem? hk) c rfl
    · exact nomatch hstep
  | .checkActivate p counts =>
    simp only [retentionStep] at hstep
    split at hstep
    · next row locks hp =>
      obtain rfl := Option.some.inj hstep
      exact h.check hp (fun hok ↦ validated_of_checkActivate hok) (fun _ h ↦ nomatch h) fun h ↦ nomatch h
    · exact nomatch hstep
  | .commitPromotion p now =>
    simp only [retentionStep] at hstep
    split at hstep
    · next row locks counted hp =>
      split at hstep
      · split at hstep
        · next T hok =>
          obtain rfl := Option.some.inj hstep
          exact h.commitPromotion hp hok
        · obtain rfl := Option.some.inj hstep
          exact h.setPromotion hp fun _ h ↦ nomatch h
      · exact nomatch hstep
    · exact nomatch hstep
  | .abortPromotion p =>
    simp only [retentionStep] at hstep
    split at hstep
    · next hp =>
      obtain rfl := Option.some.inj hstep
      exact h.setPromotion hp fun _ h ↦ nomatch h
    · exact nomatch hstep

end Retention

/-- A clean-up that commits deletes no chunk of an active version, and the version that was rolled back to
has the chunks that were counted. -/
def SparesActive (s : Retention) : Prop :=
  (∀ k t, retentionStep s (.commitCleanup k) = some t → ∀ c ∈ s.chunks, c ∉ t.chunks →
    ∀ row, s.versions.find (byVersionId c.indexVersionId) = some row → row.status ≠ .active) ∧
  ∀ v chunks, s.serving = some (v, chunks) → ∀ c ∈ chunks, c ∈ s.chunks

theorem Retention.Kept.sparesActive {s : Retention} (h : s.Kept) : SparesActive s := by
  refine ⟨fun k t hstep c hc hgone row hrow hactive ↦ ?_, fun v chunks hv c hc ↦ ((h.serving v chunks hv).2 c hc).2⟩
  simp only [retentionStep] at hstep
  split at hstep
  · next listed deleted hk =>
    obtain rfl := Option.some.inj hstep
    have hdeleted : c ∈ deleted := by
      by_contra hnot
      exact hgone (List.mem_filter.2 ⟨hc, decide_eq_true hnot⟩)
    have hretired := h.retired _ ⟨k, hk⟩ _ ((h.listed _ ⟨k, hk⟩).2 c hdeleted) row hrow
    rw [hactive] at hretired
    exact nomatch hretired
  · exact nomatch hstep

/-- Version 11 is active, and version 12 is retired and has a chunk. -/
def retained : Retention :=
  ⟨legacyVersions, [⟨1, 12, 0, "text", pipelineVersionMetadata digest adaConfig⟩], [], [], none⟩

theorem retained_init : retentionMachine.init retained := ⟨rfl, rfl, rfl⟩

/-- The rollback is over before the clean-up begins. -/
def apartRun : List RetentionAction :=
  [.lockVersion 12, .checkRollback 0, .commitPromotion 0 3, .readRetired 5, .deleteChunks 0,
    .commitCleanup 0]

set_option maxRecDepth 8000 in
theorem apartRun_isSome : (retentionMachine.run KeepApart retained apartRun).isSome = true := by decide +kernel

/-- The clean-up has read the version when it is rolled back to. -/
def lateRun : List RetentionAction :=
  [.readRetired 5, .lockVersion 12, .checkRollback 0, .commitPromotion 0 3, .deleteChunks 0]

set_option maxRecDepth 8000 in
theorem lateRun_isSome : (retentionMachine.run anyStep retained lateRun).isSome = true := by decide +kernel

/-- The rollback has counted the chunks when the clean-up reads the version. -/
def earlyRun : List RetentionAction :=
  [.lockVersion 12, .checkRollback 0, .readRetired 5, .deleteChunks 0, .commitCleanup 0,
    .commitPromotion 0 3]

set_option maxRecDepth 8000 in
theorem earlyRun_isSome : (retentionMachine.run anyStep retained earlyRun).isSome = true := by decide +kernel

end GenericApp
