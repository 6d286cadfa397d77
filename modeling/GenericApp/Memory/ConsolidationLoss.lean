import GenericApp.Foundation.Merging
import GenericApp.Memory.Contradictions

/-!
# What consolidation loses

`consolidate` keeps, of the items with one key, the first of the most recent ones, and of these what the newest of its
group does not contradict (`mem_consolidate_iff`). The key is the start of the text, and it does not look at the group;
so an item may be merged into one that says something else, or into one that is dropped for what it says to another
group. And the newest item of a group comes behind the others, so that a limit cuts it off first.

`consolidatesWell_iff` says when nothing is lost and nothing newer is cut off.
-/

namespace GenericApp

open Py

section ConsolidationLoss

variable (conv : Conversions) (now : DateTime) (items : List MemoryItem)

/-- The whole text that the key is cut from. -/
def normalizedText (content : String) : String := " ".intercalate (splitWords (conv.lower content))

def SameText (a b : MemoryItem) : Prop := normalizedText conv a.content = normalizedText conv b.content

/-- An item with its calibrated confidence. -/
def calibrated (item : MemoryItem) : MemoryItem :=
  { item with metadata := { item.metadata with confidence := calibratedConfidence now item } }

/-- What stands for the keys of the items. -/
def keyRepresentatives : List MemoryItem :=
  representatives (fun item ↦ similarityKey conv item.content) recencyScore items

/-- The newest item of its group, when confidence is calibrated. -/
def IsNewestRepresentative (newest : MemoryItem) : Prop :=
  IsNewest ((keyRepresentatives conv items).map (calibrated now)) newest

/-- An item that stands for its key and that the newest of its group does not contradict. -/
def Remains (item : MemoryItem) : Prop :=
  item ∈ keyRepresentatives conv items ∧ ∀ newest, IsNewestRepresentative conv now items newest →
    SameGroup newest item → contradicts conv newest.content item.content = false

/-- What consolidation is for: what is given is there again, or something at least as recent that has its text, or that
is of its group and contradicts it; and a limit cuts nothing off that is more recent than what it leaves of the group. -/
structure ConsolidatesWell : Prop where
  kept : ∀ x ∈ items, ∃ y ∈ items, calibrated now y ∈ consolidate conv now items ∧
    (y = x ∨ (SameText conv y x ∧ recencyScore x ≤ recencyScore y) ∨
      SameGroup y x ∧ recencyScore x ≤ recencyScore y ∧ contradicts conv y.content x.content = true)
  cut : ∀ limit, ∀ left ∈ (consolidate conv now items).take limit, ∀ lost ∈ (consolidate conv now items).drop limit,
    SameGroup lost left → ¬recencyScore left < recencyScore lost

/-- When items can be consolidated: each has its whole text in an item that stands, or is contradicted by one of its group
that stands and is at least as recent; and what stands is as recent as the newest of its group. -/
structure Consolidable : Prop where
  represented : ∀ x ∈ items, (∃ r, Remains conv now items r ∧ SameText conv r x) ∨
    ∃ r, Remains conv now items r ∧ SameGroup r x ∧ recencyScore x ≤ recencyScore r ∧
      contradicts conv r.content x.content = true
  even : ∀ r, Remains conv now items r → ∀ newest, IsNewestRepresentative conv now items newest → SameGroup newest r →
    recencyScore newest ≤ recencyScore (calibrated now r)

variable {conv now items} {x y r : MemoryItem}

/-! ### What is kept -/

theorem mergeItem_eq : mergeItem conv = mergeBy (fun item ↦ similarityKey conv item.content) recencyScore := by
  funext grouped item
  rw [mergeItem, mergeBy]
  cases grouped.get? (similarityKey conv item.content) <;> rfl

theorem mergeDuplicates_eq (items : List MemoryItem) : mergeDuplicates conv items = keyRepresentatives conv items := by
  rw [mergeDuplicates, mergeItem_eq]
  exact values_mergeBy items

theorem consolidate_eq (items : List MemoryItem) :
    consolidate conv now items = markContradictions conv ((keyRepresentatives conv items).map (calibrated now)) := by
  rw [← mergeDuplicates_eq, consolidate]
  split
  · next hempty =>
    rw [List.isEmpty_iff.1 hempty]
    rfl
  · rfl

/-- **What is kept** are the items that stand. -/
theorem mem_consolidate_iff : y ∈ consolidate conv now items ↔ ∃ r, Remains conv now items r ∧ calibrated now r = y := by
  rw [consolidate_eq, mem_markContradictions, List.mem_map]
  constructor
  · rintro ⟨⟨r, hr, rfl⟩, hnot⟩
    exact ⟨r, ⟨hr, hnot⟩, rfl⟩
  · rintro ⟨r, hr, rfl⟩
    exact ⟨⟨r, hr.1, rfl⟩, hr.2⟩

/-- What stands for a key is at least as recent as what has the key. -/
theorem recencyScore_le (hr : r ∈ keyRepresentatives conv items) (hx : x ∈ items)
    (hkey : similarityKey conv x.content = similarityKey conv r.content) : recencyScore x ≤ recencyScore r :=
  (representative_eq_some (mem_representatives_iff.1 hr)).2.2 x hx hkey

theorem mem_items_of_remains (h : Remains conv now items r) : r ∈ items :=
  (representative_eq_some (mem_representatives_iff.1 h.1)).1

/-- An item that is kept has the text and the group of one that stands and is at least as recent. -/
theorem exists_remains (hy : y ∈ items) (hkept : calibrated now y ∈ consolidate conv now items) :
    ∃ r, Remains conv now items r ∧ r.content = y.content ∧ SameGroup r y ∧ recencyScore y ≤ recencyScore r := by
  obtain ⟨r, hr, heq⟩ := mem_consolidate_iff.1 hkept
  -- calibrating changes nothing but the confidence
  have hcontent : (calibrated now r).content = (calibrated now y).content := by rw [heq]
  have hgroup : SameGroup (calibrated now r) (calibrated now y) := heq ▸ ⟨rfl, rfl⟩
  exact ⟨r, hr, hcontent, hgroup, recencyScore_le hr.1 hy (congrArg (similarityKey conv) hcontent.symm)⟩

theorem kept_iff (hx : x ∈ items) :
    (∃ y ∈ items, calibrated now y ∈ consolidate conv now items ∧
      (y = x ∨ (SameText conv y x ∧ recencyScore x ≤ recencyScore y) ∨
        SameGroup y x ∧ recencyScore x ≤ recencyScore y ∧ contradicts conv y.content x.content = true)) ↔
    (∃ r, Remains conv now items r ∧ SameText conv r x) ∨
      ∃ r, Remains conv now items r ∧ SameGroup r x ∧ recencyScore x ≤ recencyScore r ∧
        contradicts conv r.content x.content = true := by
  constructor
  · rintro ⟨y, hy, hkept, hwhy⟩
    obtain ⟨r, hr, hcontent, hgroup, hle⟩ := exists_remains hy hkept
    rcases hwhy with rfl | ⟨htext, -⟩ | ⟨hsame, hrecent, hcontradicts⟩
    · exact .inl ⟨r, hr, congrArg (normalizedText conv) hcontent⟩
    · exact .inl ⟨r, hr, (congrArg (normalizedText conv) hcontent).trans htext⟩
    · refine .inr ⟨r, hr, ⟨hgroup.1.trans hsame.1, hgroup.2.trans hsame.2⟩, hrecent.trans hle, ?_⟩
      rwa [hcontent]
  · rintro (⟨r, hr, htext⟩ | ⟨r, hr, hrest⟩)
    · -- texts that are the same have the same start
      have hkey : similarityKey conv x.content = similarityKey conv r.content := congrArg (slice 160) htext.symm
      exact ⟨r, mem_items_of_remains hr, mem_consolidate_iff.2 ⟨r, hr, rfl⟩, .inr (.inl ⟨htext, recencyScore_le hr.1 hx hkey⟩)⟩
    · exact ⟨r, mem_items_of_remains hr, mem_consolidate_iff.2 ⟨r, hr, rfl⟩, .inr (.inr hrest)⟩

/-! ### What is cut off -/

/-- The newest of a group is at least as recent as everything of the group that is kept. -/
theorem exists_newest (h : Remains conv now items r) : ∃ newest, IsNewestRepresentative conv now items newest ∧
    SameGroup newest r ∧ ∀ other ∈ consolidate conv now items, SameGroup other r →
      recencyScore other ≤ recencyScore newest := by
  have hmem : calibrated now r ∈ (keyRepresentatives conv items).map (calibrated now) := List.mem_map_of_mem h.1
  obtain ⟨entry, -, hgroup, hin⟩ := exists_group hmem
  obtain ⟨newest, challengers, hsorted, -⟩ := uncontradicted_eq conv (List.ne_nil_of_mem hin)
  obtain ⟨hkey, hnewest, hgreatest⟩ := isNewest_of_byRecency (hgroup ▸ hsorted)
  refine ⟨newest, hnewest, groupKey_eq_iff.1 hkey, fun other hother hsame ↦ hgreatest other (mem_groupOf.2 ⟨?_, ?_⟩)⟩
  · rw [consolidate_eq] at hother
    exact (mem_markContradictions.1 hother).1
  · exact groupKey_eq_iff.2 (show SameGroup other (calibrated now r) from hsame)

/-- **The newest of a group comes behind what is kept of it.** -/
theorem exists_limit (h : Remains conv now items r) {newest : MemoryItem}
    (hnewest : IsNewestRepresentative conv now items newest) (hsame : SameGroup newest r) :
    calibrated now r = newest ∨ ∃ limit, calibrated now r ∈ (consolidate conv now items).take limit ∧
      newest ∈ (consolidate conv now items).drop limit := by
  have hmem : calibrated now r ∈ (keyRepresentatives conv items).map (calibrated now) := List.mem_map_of_mem h.1
  obtain ⟨entry, hentry, hgroup, hin⟩ := exists_group hmem
  obtain ⟨first, challengers, hsorted, hleft⟩ := uncontradicted_eq conv (List.ne_nil_of_mem hin)
  obtain ⟨hkey, hfirst, -⟩ := isNewest_of_byRecency (hgroup ▸ hsorted)
  have hboth : SameGroup first newest :=
    groupKey_eq_iff.1 (hkey.trans (groupKey_eq_iff.2 (show SameGroup (calibrated now r) newest from ⟨hsame.1.symm, hsame.2.symm⟩)))
  obtain rfl := hfirst.unique hnewest hboth
  rcases List.mem_cons.1 (hsorted ▸ (byRecency_perm entry.2).mem_iff.2 hin) with heq | hchallenger
  · exact .inl heq
  · right
    have hnot := h.2 first hnewest hsame
    obtain ⟨before, after, hentries⟩ := List.append_of_mem hentry
    have hkept : calibrated now r ∈
        challengers.filter fun challenger ↦ !contradicts conv first.content challenger.content := by
      refine List.mem_filter.2 ⟨hchallenger, ?_⟩
      rw [show contradicts conv first.content (calibrated now r).content = false from hnot]
      rfl
    obtain ⟨front, back, hsplit, hfront⟩ : ∃ front back, consolidate conv now items = front ++ first :: back ∧
        calibrated now r ∈ front := by
      refine ⟨_, after.flatMap fun entry ↦ uncontradicted conv entry.2, ?_,
        List.mem_append_right (before.flatMap fun entry ↦ uncontradicted conv entry.2) hkept⟩
      rw [consolidate_eq, markContradictions, hentries, List.flatMap_append, List.flatMap_cons, hleft, List.append_assoc,
        List.append_assoc, List.singleton_append]
    refine ⟨front.length, ?_, ?_⟩
    · rwa [hsplit, List.take_left]
    · rw [hsplit, List.drop_left]
      exact List.mem_cons_self

/-- **When items are consolidated well.** -/
theorem consolidatesWell_iff : ConsolidatesWell conv now items ↔ Consolidable conv now items := by
  constructor
  · intro h
    refine ⟨fun x hx ↦ (kept_iff hx).1 (h.kept x hx), fun r hr newest hnewest hsame ↦ ?_⟩
    rcases exists_limit hr hnewest hsame with rfl | ⟨limit, hleft, hlost⟩
    · exact le_refl _
    · exact not_lt.1 (h.cut limit _ hleft _ hlost hsame)
  · intro h
    refine ⟨fun x hx ↦ (kept_iff hx).2 (h.represented x hx), fun limit left hleft lost hlost hsame ↦ not_lt.2 ?_⟩
    obtain ⟨r, hr, rfl⟩ := mem_consolidate_iff.1 (List.mem_of_mem_take hleft)
    obtain ⟨newest, hnewest, hnewestSame, hgreatest⟩ := exists_newest hr
    calc recencyScore lost
      _ ≤ recencyScore newest := hgreatest lost (List.mem_of_mem_drop hlost) hsame
      _ ≤ recencyScore (calibrated now r) := h.even r hr newest hnewest hnewestSame

end ConsolidationLoss

/-- Two preferences that have nothing to do with one another. -/
def twoPreferences : List MemoryItem := [preferenceAt 1 "Lives in Berlin", preferenceAt 2 "Likes tea"]

/-- **A limit of one leaves the older of two preferences.** -/
theorem twoPreferences_cut :
    ¬∀ (now : DateTime) (items : List MemoryItem), ConsolidatesWell MemoryMetadata.plainConversions now items := by
  intro h
  let summary (item : MemoryItem) := (item.metadata.memoryType, item.metadata.memoryLevel, recencyScore item)
  let consolidated := consolidate MemoryMetadata.plainConversions (timedelta 3) twoPreferences
  have hleft : (consolidated.take 1).map summary = [(.preference, .user, 1001 / 1000)] := by decide +kernel
  have hlost : (consolidated.drop 1).map summary = [(.preference, .user, 1001 / 500)] := by decide +kernel
  obtain ⟨left, hmemLeft, heqLeft⟩ := List.mem_map.1 (hleft ▸ List.mem_singleton_self _)
  obtain ⟨lost, hmemLost, heqLost⟩ := List.mem_map.1 (hlost ▸ List.mem_singleton_self _)
  obtain ⟨htypeLeft, hrestLeft⟩ := Prod.mk.inj heqLeft
  obtain ⟨htypeLost, hrestLost⟩ := Prod.mk.inj heqLost
  obtain ⟨hlevelLeft, hscoreLeft⟩ := Prod.mk.inj hrestLeft
  obtain ⟨hlevelLost, hscoreLost⟩ := Prod.mk.inj hrestLost
  refine (h (timedelta 3) twoPreferences).cut 1 left hmemLeft lost hmemLost
    ⟨htypeLost.trans htypeLeft.symm, hlevelLost.trans hlevelLeft.symm⟩ ?_
  rw [hscoreLeft, hscoreLost]
  decide +kernel

end GenericApp
