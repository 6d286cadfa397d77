import GenericApp.Foundation.StableSort
import GenericApp.Memory.StoredMetadata

/-!
# What `mark_contradictions` resolves

A group is what has one type and one level. Its newest item, the first of the most recent ones, is compared with each
of the others, and these are not compared with one another. So what is left is what the newest item does not contradict
(`mem_markContradictions`), and it may hold a contradiction between two others.

`contradictionsResolved_iff`: nothing that is left contradicts anything else of its group if and only if the newest
item has a part in every contradiction.
-/

namespace GenericApp

open Py
open scoped List

/-! ### Groups -/

/-- Of one type and one level. -/
def SameGroup (a b : MemoryItem) : Prop :=
  a.metadata.memoryType = b.metadata.memoryType ∧ a.metadata.memoryLevel = b.metadata.memoryLevel

theorem groupKey_eq_iff {a b : MemoryItem} : groupKey a = groupKey b ↔ SameGroup a b := by
  constructor
  · intro h
    have hcolon : ∀ memoryType : MemoryType, ':' ∉ memoryType.value.toList := by
      intro memoryType
      cases memoryType <;> decide
    have hlist := congrArg String.toList h
    simp only [groupKey, String.toList_append, List.append_assoc] at hlist
    obtain ⟨htype, hlevel⟩ := cons_append_inj_of_notMem (hcolon _) (hcolon _) hlist
    have htype' := congrArg MemoryType.ofValue (String.toList_inj.1 htype)
    have hlevel' := congrArg MemoryLevel.ofValue (String.toList_inj.1 hlevel)
    simp only [MemoryType.ofValue_value, MemoryLevel.ofValue_value] at htype' hlevel'
    exact ⟨Option.some.inj htype', Option.some.inj hlevel'⟩
  · rintro ⟨htype, hlevel⟩
    rw [groupKey, groupKey, htype, hlevel]

/-- The items of a group, in their order. -/
def groupOf (items : List MemoryItem) (key : String) : List MemoryItem := items.filter fun item ↦ groupKey item = key

theorem mem_groupOf {items : List MemoryItem} {key : String} {item : MemoryItem} :
    item ∈ groupOf items key ↔ item ∈ items ∧ groupKey item = key := by
  rw [groupOf, List.mem_filter, decide_eq_true_iff]

/-- What is under a key after the loop. -/
theorem get?_groupItems (items : List MemoryItem) (byType : Mapping (List MemoryItem)) (key : String) :
    ((items.foldl groupItem byType).get? key).getD [] = (byType.get? key).getD [] ++ groupOf items key := by
  induction items generalizing byType with
  | nil => exact (List.append_nil _).symm
  | cons item items ih =>
    rw [List.foldl_cons, ih, groupItem, Mapping.get?_put, groupOf, groupOf, List.filter_cons]
    by_cases hkey : groupKey item = key
    · subst hkey
      simp
    · rw [if_neg (Ne.symm hkey), if_neg (by simpa using hkey)]

/-- The groups are those of the keys. -/
theorem group_of_mem {items : List MemoryItem} {entry : String × List MemoryItem}
    (h : entry ∈ (items.foldl groupItem .empty).entries) : entry.2 = groupOf items entry.1 := by
  have hget := get?_groupItems items .empty entry.1
  rw [Mapping.get?_of_mem h] at hget
  exact hget

/-- Every item is in a group. -/
theorem exists_group {items : List MemoryItem} {item : MemoryItem} (h : item ∈ items) :
    ∃ entry ∈ (items.foldl groupItem .empty).entries, entry.2 = groupOf items (groupKey item) ∧ item ∈ entry.2 := by
  have hflat := (groups_perm items .empty).mem_iff.2 (List.mem_append_right _ h)
  obtain ⟨entry, hentry, hmem⟩ := List.mem_flatMap.1 hflat
  have hgroup := group_of_mem hentry
  rw [hgroup, mem_groupOf] at hmem
  exact ⟨entry, hentry, by rw [hmem.2, hgroup], by rw [hgroup]; exact mem_groupOf.2 hmem⟩

/-! ### Contradiction -/

section Contradiction

variable (conv : Conversions)

theorem contradicts_self (text : String) : contradicts conv text text = false := if_pos rfl

end Contradiction

/-! ### The newest item -/

/-- The newest item of its group: the first of the most recent ones. -/
def IsNewest (items : List MemoryItem) (newest : MemoryItem) : Prop :=
  ∃ before after, items = before ++ newest :: after ∧
    (∀ item ∈ before, SameGroup item newest → recencyScore item < recencyScore newest) ∧
    ∀ item ∈ after, SameGroup item newest → recencyScore item ≤ recencyScore newest

/-- The order in which a group is sorted. -/
def byRecency (group : List MemoryItem) : List MemoryItem :=
  group.insertionSort fun a b ↦ recencyScore a ≥ recencyScore b

theorem byRecency_perm (group : List MemoryItem) : (byRecency group).Perm group := List.perm_insertionSort _ group

theorem pairwise_byRecency (group : List MemoryItem) :
    (byRecency group).Pairwise fun a b ↦ recencyScore b ≤ recencyScore a :=
  pairwise_insertionSort_desc recencyScore group

/-- Items that are equally recent stay in their order. -/
theorem fibre_byRecency (group : List MemoryItem) (score : ℚ) :
    (byRecency group).filter (fun item ↦ recencyScore item = score) =
      group.filter fun item ↦ recencyScore item = score :=
  @fibre_sortedBy _ _ _ (fun item ↦ OrderDual.toDual (recencyScore item)) group (OrderDual.toDual score)

/-- The first of the sorted group is the newest. -/
theorem isNewest_of_byRecency {items challengers : List MemoryItem} {key : String} {newest : MemoryItem}
    (h : byRecency (groupOf items key) = newest :: challengers) :
    groupKey newest = key ∧ IsNewest items newest ∧
      ∀ item ∈ groupOf items key, recencyScore item ≤ recencyScore newest := by
  have hmem : newest ∈ groupOf items key :=
    (byRecency_perm _).mem_iff.1 (h ▸ List.mem_cons_self)
  have hkey := (mem_groupOf.1 hmem).2
  have hle : ∀ item ∈ groupOf items key, recencyScore item ≤ recencyScore newest := by
    intro item hitem
    have hsorted := h ▸ pairwise_byRecency (groupOf items key)
    rcases List.mem_cons.1 (h ▸ (byRecency_perm _).mem_iff.2 hitem) with rfl | hlater
    · exact le_refl _
    · exact (List.pairwise_cons.1 hsorted).1 item hlater
  -- those as recent as the newest come in the order of the items, and the newest is the first of them
  have hfibre := fibre_byRecency (groupOf items key) (recencyScore newest)
  rw [h, List.filter_cons_of_pos (by simp), groupOf, List.filter_filter] at hfibre
  obtain ⟨before, after, hitems, hbefore, -, -⟩ := List.filter_eq_cons_iff.1 hfibre.symm
  refine ⟨hkey, ⟨before, after, hitems, fun item hitem hsame ↦ ?_, fun item hitem hsame ↦ ?_⟩, hle⟩
  · have hgroup : groupKey item = key := (groupKey_eq_iff.2 hsame).trans hkey
    refine lt_of_le_of_ne (hle item (mem_groupOf.2 ⟨?_, hgroup⟩)) fun heq ↦ hbefore item hitem ?_
    · exact hitems ▸ List.mem_append_left _ hitem
    · simp [hgroup, heq]
  · refine hle item (mem_groupOf.2 ⟨?_, (groupKey_eq_iff.2 hsame).trans hkey⟩)
    exact hitems ▸ List.mem_append_right _ (List.mem_cons_of_mem _ hitem)

/-- A group has one newest item. -/
theorem IsNewest.unique {items : List MemoryItem} {a b : MemoryItem} (ha : IsNewest items a) (hb : IsNewest items b)
    (hsame : SameGroup a b) : a = b := by
  obtain ⟨before, after, rfl, hbefore, hafter⟩ := ha
  obtain ⟨before', after', hitems, hbefore', hafter'⟩ := hb
  have hsame' : SameGroup b a := ⟨hsame.1.symm, hsame.2.symm⟩
  rcases List.append_eq_append_iff.1 hitems with ⟨between, hlonger, hrest⟩ | ⟨between, hlonger, hrest⟩
  · rcases between with - | ⟨first, between⟩
    · exact (List.cons.inj hrest).1
    · -- the first is before the second, which would have to be more recent, and is not
      obtain ⟨rfl, hafter_eq⟩ := List.cons.inj hrest
      have hlt := hbefore' a (hlonger ▸ List.mem_append_right _ List.mem_cons_self) hsame
      have hle := hafter b (hafter_eq ▸ List.mem_append_right _ List.mem_cons_self) hsame'
      exact absurd hle (not_le.2 hlt)
  · rcases between with - | ⟨first, between⟩
    · exact (List.cons.inj hrest).1.symm
    · obtain ⟨rfl, hafter_eq⟩ := List.cons.inj hrest
      have hlt := hbefore b (hlonger ▸ List.mem_append_right _ List.mem_cons_self) hsame'
      have hle := hafter' a (hafter_eq ▸ List.mem_append_right _ List.mem_cons_self) hsame
      exact absurd hle (not_le.2 hlt)

/-! ### What is left of a group -/

section Left

variable {conv : Conversions}

/-- A group is its newest item and its challengers, of which those are left that the newest does not contradict. -/
theorem uncontradicted_eq (conv : Conversions) {group : List MemoryItem} (h : group ≠ []) : ∃ newest challengers,
    byRecency group = newest :: challengers ∧
      uncontradicted conv group =
        (challengers.filter fun challenger ↦ !contradicts conv newest.content challenger.content) ++ [newest] := by
  rcases hsorted : byRecency group with - | ⟨newest, challengers⟩
  · exact absurd (hsorted ▸ byRecency_perm group).nil_eq.symm h
  refine ⟨newest, challengers, rfl, ?_⟩
  rw [uncontradicted, ← byRecency, hsorted]
  split
  · next hone =>
    obtain ⟨item, rfl⟩ := List.length_eq_one_iff.1 hone
    obtain ⟨rfl, rfl⟩ := List.cons.inj hsorted
    rfl
  · rfl

/-- **What is left** is what the newest item of its group does not contradict. -/
theorem mem_markContradictions {items : List MemoryItem} {item : MemoryItem} :
    item ∈ markContradictions conv items ↔ item ∈ items ∧
      ∀ newest, IsNewest items newest → SameGroup newest item →
        contradicts conv newest.content item.content = false := by
  rw [markContradictions, List.mem_flatMap]
  constructor
  · rintro ⟨entry, hentry, hmem⟩
    have hgroup := group_of_mem hentry
    have hne : entry.2 ≠ [] := by
      intro hnil
      rw [hnil] at hmem
      exact List.not_mem_nil hmem
    obtain ⟨newest, challengers, hsorted, hleft⟩ := uncontradicted_eq conv hne
    obtain ⟨hkey, hnewest, -⟩ := isNewest_of_byRecency (hgroup ▸ hsorted)
    have hin : item ∈ newest :: challengers ∧ contradicts conv newest.content item.content = false := by
      rw [hleft, List.mem_append, List.mem_filter, List.mem_singleton] at hmem
      rcases hmem with ⟨hmem, hnot⟩ | rfl
      · exact ⟨List.mem_cons_of_mem _ hmem, by simpa using hnot⟩
      · exact ⟨List.mem_cons_self, contradicts_self conv _⟩
    have hitem := (byRecency_perm entry.2).mem_iff.1 (hsorted ▸ hin.1)
    rw [hgroup] at hitem
    obtain ⟨hitem, hitemKey⟩ := mem_groupOf.1 hitem
    refine ⟨hitem, fun other hother hsame ↦ ?_⟩
    have hboth : SameGroup other newest :=
      groupKey_eq_iff.1 ((groupKey_eq_iff.2 hsame).trans (hitemKey.trans hkey.symm))
    obtain rfl := hother.unique hnewest hboth
    exact hin.2
  · rintro ⟨hitem, hnot⟩
    obtain ⟨entry, hentry, hgroup, hmem⟩ := exists_group hitem
    obtain ⟨newest, challengers, hsorted, hleft⟩ := uncontradicted_eq conv (List.ne_nil_of_mem hmem)
    obtain ⟨hkey, hnewest, -⟩ := isNewest_of_byRecency (hgroup ▸ hsorted)
    refine ⟨entry, hentry, ?_⟩
    rw [hleft, List.mem_append, List.mem_filter, List.mem_singleton]
    rcases List.mem_cons.1 (hsorted ▸ (byRecency_perm entry.2).mem_iff.2 hmem) with rfl | hchallenger
    · exact .inr rfl
    · refine .inl ⟨hchallenger, ?_⟩
      rw [hnot newest hnewest (groupKey_eq_iff.1 hkey)]
      rfl

/-- What is lost of a group is contradicted by something more recent that is left. -/
theorem exists_lost (conv : Conversions) (group : List MemoryItem) : ∃ lost, group.Perm (uncontradicted conv group ++ lost) ∧
    ∀ item ∈ lost, ∃ winner ∈ uncontradicted conv group, recencyScore item ≤ recencyScore winner ∧
      contradicts conv winner.content item.content = true := by
  by_cases hne : group = []
  · subst hne
    exact ⟨[], .refl _, fun _ h ↦ absurd h List.not_mem_nil⟩
  obtain ⟨newest, challengers, hsorted, hleft⟩ := uncontradicted_eq conv hne
  let beaten (challenger : MemoryItem) : Bool := contradicts conv newest.content challenger.content
  refine ⟨challengers.filter beaten, ?_, ?_⟩
  · have hsplit : (challengers.filter (fun challenger ↦ !beaten challenger) ++ challengers.filter beaten).Perm
        challengers :=
      List.perm_append_comm.trans (List.filter_append_perm beaten challengers)
    calc group
      _ ~ newest :: challengers := hsorted ▸ (byRecency_perm group).symm
      _ ~ newest :: (challengers.filter (fun challenger ↦ !beaten challenger) ++ challengers.filter beaten) :=
        hsplit.symm.cons newest
      _ ~ challengers.filter (fun challenger ↦ !beaten challenger) ++ newest :: challengers.filter beaten :=
        List.perm_middle.symm
      _ = uncontradicted conv group ++ challengers.filter beaten := by
        rw [hleft, List.append_assoc]
        rfl
  · intro item hitem
    obtain ⟨hchallenger, hcontradicted⟩ := List.mem_filter.1 hitem
    refine ⟨newest, hleft ▸ List.mem_append_right _ (List.mem_singleton_self _), ?_, hcontradicted⟩
    exact (List.pairwise_cons.1 (hsorted ▸ pairwise_byRecency group)).1 item hchallenger

theorem mem_of_mem_uncontradicted {group : List MemoryItem} {item : MemoryItem}
    (h : item ∈ uncontradicted conv group) : item ∈ group := by
  obtain ⟨lost, hperm, -⟩ := exists_lost conv group
  exact hperm.mem_iff.2 (List.mem_append_left _ h)

/-- What is lost of all groups. -/
theorem exists_dropped (conv : Conversions) (items : List MemoryItem) : ∃ dropped, items.Perm (markContradictions conv items ++ dropped) ∧
    ∀ item ∈ dropped, ∃ winner ∈ markContradictions conv items, SameGroup winner item ∧
      recencyScore item ≤ recencyScore winner ∧ contradicts conv winner.content item.content = true := by
  have hgroups : ∀ entries : List (String × List MemoryItem), ∃ dropped,
      (entries.flatMap Prod.snd).Perm ((entries.flatMap fun entry ↦ uncontradicted conv entry.2) ++ dropped) ∧
        ∀ item ∈ dropped, ∃ entry ∈ entries, item ∈ entry.2 ∧ ∃ winner ∈ uncontradicted conv entry.2,
          recencyScore item ≤ recencyScore winner ∧ contradicts conv winner.content item.content = true := by
    intro entries
    induction entries with
    | nil => exact ⟨[], .refl _, fun _ h ↦ absurd h List.not_mem_nil⟩
    | cons entry entries ih =>
      obtain ⟨lost, hlost, hwhy⟩ := exists_lost conv entry.2
      obtain ⟨dropped, hdropped, hall⟩ := ih
      refine ⟨lost ++ dropped, ?_, fun item hitem ↦ ?_⟩
      · rw [List.flatMap_cons, List.flatMap_cons]
        refine (hlost.append hdropped).trans ?_
        rw [List.append_assoc, List.append_assoc]
        refine List.Perm.append_left _ ?_
        rw [← List.append_assoc, ← List.append_assoc]
        exact List.perm_append_comm.append_right _
      · rcases List.mem_append.1 hitem with hitem | hitem
        · exact ⟨entry, List.mem_cons_self, hlost.mem_iff.2 (List.mem_append_right _ hitem), hwhy item hitem⟩
        · obtain ⟨other, hother, hrest⟩ := hall item hitem
          exact ⟨other, List.mem_cons_of_mem _ hother, hrest⟩
  obtain ⟨dropped, hperm, hall⟩ := hgroups (items.foldl groupItem .empty).entries
  refine ⟨dropped, (groups_perm items .empty).symm.trans hperm, fun item hitem ↦ ?_⟩
  obtain ⟨entry, hentry, hmem, winner, hwinner, hle, hcontradicts⟩ := hall item hitem
  refine ⟨winner, List.mem_flatMap.2 ⟨entry, hentry, hwinner⟩, ?_, hle, hcontradicts⟩
  have hboth := mem_of_mem_uncontradicted hwinner
  rw [group_of_mem hentry] at hmem hboth
  exact groupKey_eq_iff.1 ((mem_groupOf.1 hboth).2.trans (mem_groupOf.1 hmem).2.symm)

/-- Where nothing is contradicted, nothing is lost. -/
theorem markContradictions_perm {items : List MemoryItem}
    (h : ∀ a ∈ items, ∀ b ∈ items, SameGroup a b → contradicts conv a.content b.content = false) :
    (markContradictions conv items).Perm items := by
  obtain ⟨dropped, hperm, hall⟩ := exists_dropped conv items
  rcases dropped with - | ⟨item, dropped⟩
  · rw [List.append_nil] at hperm
    exact hperm.symm
  · obtain ⟨winner, hwinner, hsame, -, hcontradicts⟩ := hall item List.mem_cons_self
    have hnot := h winner (hperm.mem_iff.2 (List.mem_append_left _ hwinner)) item
      (hperm.mem_iff.2 (List.mem_append_right _ List.mem_cons_self)) hsame
    exact absurd (hnot.symm.trans hcontradicts) Bool.false_ne_true

end Left

/-! ### What is resolved -/

section Resolved

variable (conv : Conversions)

/-- What resolving the contradictions is for: what is left is part of what there was and holds no contradiction
between two items of one group, what is dropped is contradicted by something of its group that is left and is at least
as recent, and doing it again keeps the same items. -/
structure ContradictionsResolved (items : List MemoryItem) : Prop where
  part : (markContradictions conv items).Subperm items
  consistent : ∀ a ∈ markContradictions conv items, ∀ b ∈ markContradictions conv items, SameGroup a b →
    contradicts conv a.content b.content = false
  dropped : ∃ dropped, items.Perm (markContradictions conv items ++ dropped) ∧
    ∀ item ∈ dropped, ∃ winner ∈ markContradictions conv items, SameGroup winner item ∧
      recencyScore item ≤ recencyScore winner ∧ contradicts conv winner.content item.content = true
  idempotent : (markContradictions conv (markContradictions conv items)).Perm (markContradictions conv items)

/-- Of any two items of a group that contradict each other, the newest of the group contradicts one. -/
def NewestTakesPart (items : List MemoryItem) : Prop :=
  ∀ a ∈ items, ∀ b ∈ items, SameGroup a b → contradicts conv a.content b.content = true →
    ∀ newest, IsNewest items newest → SameGroup newest a →
      contradicts conv newest.content a.content = true ∨ contradicts conv newest.content b.content = true

/-- **When contradictions are resolved**: if and only if the newest item of a group has a part in every contradiction
within it. -/
theorem contradictionsResolved_iff (items : List MemoryItem) :
    ContradictionsResolved conv items ↔ NewestTakesPart conv items := by
  constructor
  · intro h a ha b hb hsame hcontradicts newest hnewest hgroup
    by_contra hneither
    rw [not_or, Bool.not_eq_true, Bool.not_eq_true] at hneither
    -- then both are left
    have hleft : ∀ item ∈ items, SameGroup a item → contradicts conv newest.content item.content = false →
        item ∈ markContradictions conv items := by
      intro item hitem hsameItem hnot
      refine mem_markContradictions.2 ⟨hitem, fun other hother hotherSame ↦ ?_⟩
      have hboth : SameGroup other newest := groupKey_eq_iff.1 <|
        (groupKey_eq_iff.2 hotherSame).trans <|
          (groupKey_eq_iff.2 hsameItem).symm.trans (groupKey_eq_iff.2 hgroup).symm
      obtain rfl := hother.unique hnewest hboth
      exact hnot
    have hnot := h.consistent a (hleft a ha ⟨rfl, rfl⟩ hneither.1) b (hleft b hb hsame hneither.2) hsame
    exact absurd (hnot.symm.trans hcontradicts) Bool.false_ne_true
  · intro h
    obtain ⟨dropped, hperm, hdropped⟩ := exists_dropped conv items
    have hconsistent : ∀ a ∈ markContradictions conv items, ∀ b ∈ markContradictions conv items, SameGroup a b →
        contradicts conv a.content b.content = false := by
      intro a ha b hb hsame
      obtain ⟨ha, hnotA⟩ := mem_markContradictions.1 ha
      obtain ⟨hb, hnotB⟩ := mem_markContradictions.1 hb
      by_contra hcontradicts
      obtain ⟨entry, -, hgroup, hmem⟩ := exists_group ha
      obtain ⟨newest, challengers, hsorted, -⟩ := uncontradicted_eq conv (List.ne_nil_of_mem hmem)
      obtain ⟨hkey, hnewest, -⟩ := isNewest_of_byRecency (hgroup ▸ hsorted)
      have hsameA : SameGroup newest a := groupKey_eq_iff.1 hkey
      have hsameB : SameGroup newest b := groupKey_eq_iff.1 (hkey.trans (groupKey_eq_iff.2 hsame))
      rcases h a ha b hb hsame (Bool.not_eq_false _ ▸ hcontradicts) newest hnewest hsameA with htrue | htrue
      · exact absurd ((hnotA newest hnewest hsameA).symm.trans htrue) Bool.false_ne_true
      · exact absurd ((hnotB newest hnewest hsameB).symm.trans htrue) Bool.false_ne_true
    have hpart : (markContradictions conv items).Subperm items :=
      (List.sublist_append_left _ dropped).subperm.trans hperm.symm.subperm
    exact ⟨hpart, hconsistent, ⟨dropped, hperm, hdropped⟩, markContradictions_perm hconsistent⟩

end Resolved

/-- A preference of the user, told so many seconds after the first of January 1970. -/
def preferenceAt (seconds : ℤ) (content : String) : MemoryItem where
  id := content
  content := content
  metadata :=
    { memoryLevel := .user
      memoryType := .preference
      userId := "u1"
      agentId := "default"
      createdAt := some (timedelta seconds) }

/-- Two statements of which only one can be true, and a newer one about something else. -/
def mixedPreferences : List MemoryItem :=
  [preferenceAt 1 "The team does not use Postgres", preferenceAt 2 "The team uses Postgres",
    preferenceAt 3 "Lives in Berlin"]

/-- **Both of two statements that contradict each other are left** where a newer one contradicts neither. -/
theorem mixedPreferences_unresolved : ¬ContradictionsResolved MemoryMetadata.plainConversions mixedPreferences := by
  intro h
  have hleft : (markContradictions MemoryMetadata.plainConversions mixedPreferences).map
      (fun item ↦ (item.content, item.metadata.memoryType, item.metadata.memoryLevel)) =
      [("The team uses Postgres", .preference, .user), ("The team does not use Postgres", .preference, .user),
        ("Lives in Berlin", .preference, .user)] := by
    decide +kernel
  have hmem : ∀ content : String, content ∈ ["The team uses Postgres", "The team does not use Postgres"] →
      ∃ item ∈ markContradictions MemoryMetadata.plainConversions mixedPreferences, item.content = content ∧
        item.metadata.memoryType = .preference ∧ item.metadata.memoryLevel = .user := by
    intro content hcontent
    have hmap : (content, MemoryType.preference, MemoryLevel.user) ∈
        (markContradictions MemoryMetadata.plainConversions mixedPreferences).map
          fun item ↦ (item.content, item.metadata.memoryType, item.metadata.memoryLevel) := by
      rw [hleft]
      rcases List.mem_cons.1 hcontent with rfl | hcontent
      · exact List.mem_cons_self
      · rw [List.mem_singleton.1 hcontent]
        exact List.mem_cons_of_mem _ List.mem_cons_self
    obtain ⟨item, hitem, heq⟩ := List.mem_map.1 hmap
    obtain ⟨hcontent, hrest⟩ := Prod.mk.inj heq
    obtain ⟨htype, hlevel⟩ := Prod.mk.inj hrest
    exact ⟨item, hitem, hcontent, htype, hlevel⟩
  obtain ⟨a, ha, hcontentA, htypeA, hlevelA⟩ := hmem "The team uses Postgres" (by simp)
  obtain ⟨b, hb, hcontentB, htypeB, hlevelB⟩ := hmem "The team does not use Postgres" (by simp)
  have hnot := h.consistent a ha b hb ⟨htypeA.trans htypeB.symm, hlevelA.trans hlevelB.symm⟩
  rw [hcontentA, hcontentB] at hnot
  have hcontradicts : contradicts MemoryMetadata.plainConversions "The team uses Postgres" "The team does not use Postgres" = true := by
    decide +kernel
  exact Bool.false_ne_true (hnot.symm.trans hcontradicts)

end GenericApp
