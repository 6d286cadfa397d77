import Mathlib.Data.Char
import Mathlib.Data.List.Lex
import Mathlib.Data.Prod.Lex
import GenericApp.Foundation.Base64
import GenericApp.Foundation.Keyset

/-!
# Keyset pagination

A page of a listing is the first `limit` rows of the statement, by the sort column and then by the id, both
descending. One row more is asked for, to know whether another page follows; its mark is then the sort value and
the id of the last row of this page, as a text in base64, and the next page has the rows below that pair.

How an instant is written is left open (`IsoFormat`), and so is how the database compares ids
(`Columns.collate`).
-/

namespace GenericApp

open Py Keyset

/-! ### Cursors -/

/-- `datetime.isoformat` and `datetime.fromisoformat`. -/
structure IsoFormat where
  isoformat : DateTime → Text
  fromisoformat : Text → Option DateTime

/-- An instant is read back from the text that is written for it, which has no `"\0"`. -/
def IsoFormat.Inverts (iso : IsoFormat) (value : DateTime) : Prop :=
  iso.fromisoformat (iso.isoformat value) = some value ∧ '\x00' ∉ iso.isoformat value

/-- `ValueError("Invalid pagination cursor")` -/
inductive CursorError
  | invalid
deriving DecidableEq

def encodeCursor (iso : IsoFormat) (value : DateTime) (rowId : Text) : Text :=
  stripPadding (urlsafeB64encode (encodeText (iso.isoformat value ++ '\x00' :: rowId)))

def decodeCursor (iso : IsoFormat) (cursor : Text) : Except CursorError (DateTime × Text) :=
  match urlsafeB64decode (cursor ++ base64Padding cursor) with
  | none => .error .invalid
  | some bytes =>
    match decodeText bytes with
    | none => .error .invalid
    | some payload =>
      -- `split("\0", 1)` has to give two parts
      match cutAt ['\x00'] payload with
      | none => .error .invalid
      | some (rawValue, rowId) =>
        match iso.fromisoformat rawValue with
        | none => .error .invalid
        | some value => .ok (value, rowId)

theorem decodeCursor_encodeCursor {iso : IsoFormat} {value : DateTime} (hiso : iso.Inverts value)
    (rowId : Text) : decodeCursor iso (encodeCursor iso value rowId) = .ok (value, rowId) := by
  have hcut : cutAt ['\x00'] (iso.isoformat value ++ '\x00' :: rowId) =
      some (iso.isoformat value, rowId) := by
    have hself : cutAt ['\x00'] ('\x00' :: rowId) = some ([], rowId) :=
      cutAt_self (List.cons_ne_nil '\x00' []) rowId
    rw [cutAt_append_of_notMem hiso.2, hself, Option.map_some, List.append_nil]
  simp only [decodeCursor, encodeCursor, urlsafeB64decode_unpadded, decodeText_encodeText, hcut, hiso.1]

/-- A cursor is not empty, so it is never taken for no cursor. -/
theorem encodeCursor_ne_nil {iso : IsoFormat} {value : DateTime} (hiso : iso.Inverts value)
    (rowId : Text) : encodeCursor iso value rowId ≠ [] := by
  intro h
  have hdecode := decodeCursor_encodeCursor hiso rowId
  rw [h] at hdecode
  exact absurd (hdecode.symm.trans (by rfl : decodeCursor iso [] = .error .invalid)) nofun

/-! ### Statements -/

/-- A select: the rows it ranges over, and the conditions on them. -/
structure Select (ρ : Type) where
  source : List ρ
  conditions : List (ρ → Bool)

namespace Select

variable {ρ : Type}

/-- `stmt.where(condition)` -/
def whereAlso (stmt : Select ρ) (condition : ρ → Bool) : Select ρ :=
  { stmt with conditions := stmt.conditions ++ [condition] }

/-- The rows that meet every condition. -/
def matching (stmt : Select ρ) : List ρ := stmt.source.filter fun r ↦ stmt.conditions.all (· r)

theorem matching_whereAlso (stmt : Select ρ) (condition : ρ → Bool) :
    (stmt.whereAlso condition).matching = stmt.matching.filter condition := by
  rw [matching, matching, List.filter_filter]
  refine List.filter_congr fun r _ ↦ ?_
  rw [whereAlso, List.all_append, List.all_cons, List.all_nil, Bool.and_true, Bool.and_comm]

end Select

/-- The columns a listing is ordered by. Two ids are compared through `collate`. -/
structure Columns (ε κ : Type) where
  sortColumn : ε → DateTime
  idColumn : ε → Text
  collate : Text → κ

section Listing

variable {ρ ε κ : Type} [LinearOrder κ] (columns : Columns ε κ) (iso : IsoFormat)

namespace Columns

/-- What a row is ordered by. -/
def sortKey (e : ε) : DateTime ×ₗ κ := toLex (columns.sortColumn e, columns.collate (columns.idColumn e))

/-- `(sort_column < value) | ((sort_column == value) & (id_column < row_id))` -/
def isBelow (value : DateTime) (rowId : Text) (e : ε) : Bool :=
  decide (columns.sortColumn e < value) ||
    (decide (columns.sortColumn e = value) &&
      decide (columns.collate (columns.idColumn e) < columns.collate rowId))

theorem isBelow_eq (value : DateTime) (rowId : Text) (e : ε) :
    columns.isBelow value rowId e =
      decide (columns.sortKey e < toLex (value, columns.collate rowId)) := by
  rw [isBelow, sortKey, ← Bool.decide_and, ← Bool.decide_or]
  refine decide_eq_decide.2 ?_
  rw [Prod.Lex.toLex_lt_toLex]

end Columns

/-- The page that is cut from the ordered rows: one more than `limit` is fetched. -/
def pageOf (entity : ρ → ε) (limit : ℕ) (ordered : List ρ) : Page ρ Text :=
  let fetched := ordered.take (limit + 1)
  let hasNext := decide (limit < fetched.length)
  let rows := fetched.take limit
  let nextCursor :=
    if hasNext then
      rows.getLast?.map fun last ↦
        encodeCursor iso (columns.sortColumn (entity last)) (columns.idColumn (entity last))
    else none
  ⟨rows, nextCursor, hasNext⟩

/-- What the two listings share. A row carries the columns in its entity. -/
def paginateCursor (entity : ρ → ε) (stmt : Select ρ) (limit : ℕ) (cursor : Option Text) :
    Except CursorError (Page ρ Text) := do
  let stmt ← match cursor with
    | none => .ok stmt
    | some c =>
      if c = [] then .ok stmt
      else do
        let (cursorValue, cursorId) ← decodeCursor iso c
        .ok (stmt.whereAlso fun r ↦ columns.isBelow cursorValue cursorId (entity r))
  .ok (pageOf columns iso entity limit (descending (fun r ↦ columns.sortKey (entity r)) stmt.matching))

def paginateCursorScalars (stmt : Select ε) (limit : ℕ) (cursor : Option Text) :
    Except CursorError (Page ε Text) :=
  paginateCursor columns iso id stmt limit cursor

/-- The rows are tuples, of which the first component is the entity. -/
def paginateCursorRows {β : Type} (stmt : Select (ε × β)) (limit : ℕ) (cursor : Option Text) :
    Except CursorError (Page (ε × β) Text) :=
  paginateCursor columns iso Prod.fst stmt limit cursor

/-! ### The traversal -/

variable {columns iso}

/-- The rows a page is taken from, when the cursor names `last`: those behind it. -/
theorem descending_matching_below {entity : ρ → ε} {stmt : Select ρ} {front rest : List ρ} {last : ρ}
    (hkeys : (stmt.matching.map fun r ↦ columns.sortKey (entity r)).Nodup)
    (hrows : descending (fun r ↦ columns.sortKey (entity r)) stmt.matching = front ++ last :: rest) :
    descending (fun r ↦ columns.sortKey (entity r)) (stmt.whereAlso fun r ↦
      columns.isBelow (columns.sortColumn (entity last)) (columns.idColumn (entity last))
        (entity r)).matching = rest := by
  have hsorted := descending_pairwise (fun r ↦ columns.sortKey (entity r)) hkeys
  simp only [Columns.isBelow_eq]
  rw [Select.matching_whereAlso, descending_filter _ hkeys, hrows]
  rw [hrows] at hsorted
  exact filter_lt_of_descending (fun r ↦ columns.sortKey (entity r)) hsorted

/-- Where a cursor stands: at the beginning, or behind the row it was made from. -/
inductive CursorBefore (columns : Columns ε κ) (iso : IsoFormat) (entity : ρ → ε) (rows : List ρ) :
    Option Text → List ρ → Prop
  | start : CursorBefore columns iso entity rows none rows
  | behind {front rest : List ρ} {last : ρ} (hrows : rows = front ++ last :: rest) :
      CursorBefore columns iso entity rows
        (some (encodeCursor iso (columns.sortColumn (entity last)) (columns.idColumn (entity last)))) rest

theorem paginateCursor_of_before {entity : ρ → ε} {stmt : Select ρ} {limit : ℕ} {cursor : Option Text}
    {rest : List ρ} (hkeys : (stmt.matching.map fun r ↦ columns.sortKey (entity r)).Nodup)
    (hiso : ∀ r ∈ stmt.source, iso.Inverts (columns.sortColumn (entity r)))
    (h : CursorBefore columns iso entity
      (descending (fun r ↦ columns.sortKey (entity r)) stmt.matching) cursor rest) :
    paginateCursor columns iso entity stmt limit cursor = .ok (pageOf columns iso entity limit rest) := by
  cases h with
  | start => rfl
  | @behind front _ last hrows =>
    have hlast : iso.Inverts (columns.sortColumn (entity last)) := by
      have hmem : last ∈ descending (fun r ↦ columns.sortKey (entity r)) stmt.matching := by
        rw [hrows]
        exact List.mem_append_right front List.mem_cons_self
      exact hiso last (List.mem_of_mem_filter ((descending_perm _ _).mem_iff.1 hmem))
    simp only [paginateCursor, if_neg (encodeCursor_ne_nil hlast _), decodeCursor_encodeCursor hlast]
    rw [← descending_matching_below hkeys hrows]
    rfl

omit [LinearOrder κ] in
theorem pageOf_last {entity : ρ → ε} {limit : ℕ} {rest : List ρ} (h : rest.length ≤ limit) :
    pageOf columns iso entity limit rest = ⟨rest, none, false⟩ := by
  simp only [pageOf]
  rw [List.take_of_length_le (by omega : rest.length ≤ limit + 1), List.take_of_length_le h,
    decide_eq_false (Nat.not_lt.2 h)]
  rfl

omit [LinearOrder κ] in
theorem pageOf_more {entity : ρ → ε} {limit : ℕ} {rest front : List ρ} {last : ρ}
    (h : limit < rest.length) (hfront : rest.take limit = front ++ [last]) :
    pageOf columns iso entity limit rest =
      ⟨rest.take limit,
        some (encodeCursor iso (columns.sortColumn (entity last)) (columns.idColumn (entity last))),
        true⟩ := by
  have hlength : (rest.take (limit + 1)).length = limit + 1 := by
    rw [List.length_take]
    omega
  simp only [pageOf]
  rw [hlength, List.take_take, min_eq_left (Nat.le_succ limit), hfront, List.getLast?_concat,
    decide_eq_true (Nat.lt_succ_self limit)]
  rfl

theorem standing_paginateCursor {entity : ρ → ε} {stmt : Select ρ} {limit : ℕ} (hlimit : 1 ≤ limit)
    (hkeys : (stmt.matching.map fun r ↦ columns.sortKey (entity r)).Nodup)
    (hiso : ∀ r ∈ stmt.source, iso.Inverts (columns.sortColumn (entity r))) :
    Standing (paginateCursor columns iso entity stmt limit) limit
      (CursorBefore columns iso entity
        (descending (fun r ↦ columns.sortKey (entity r)) stmt.matching)) where
  last hbefore hlength := by
    rw [paginateCursor_of_before hkeys hiso hbefore, pageOf_last hlength]
  more {cursor rest} hbefore hlength := by
    obtain ⟨front, last, hfront⟩ : ∃ front last, rest.take limit = front ++ [last] := by
      have hne : rest.take limit ≠ [] := by
        refine List.ne_nil_of_length_pos ?_
        rw [List.length_take]
        omega
      exact ⟨_, _, (List.dropLast_append_getLast hne).symm⟩
    have hrest : rest = front ++ last :: rest.drop limit := by
      calc rest = rest.take limit ++ rest.drop limit := (List.take_append_drop limit rest).symm
        _ = front ++ last :: rest.drop limit := by rw [hfront, List.append_assoc, List.singleton_append]
    refine ⟨encodeCursor iso (columns.sortColumn (entity last)) (columns.idColumn (entity last)), ?_, ?_⟩
    · rw [paginateCursor_of_before hkeys hiso hbefore, pageOf_more hlength hfront]
    · cases hbefore with
      | start => exact .behind hrest
      | @behind before _ old hrows =>
        have hbehind : before ++ old :: rest =
            (before ++ old :: front) ++ last :: rest.drop limit := by
          rw [List.append_assoc, List.cons_append, ← hrest]
        exact .behind (hrows.trans hbehind)

omit [LinearOrder κ] in
/-- Rows with different ids have different keys. -/
theorem nodup_sortKey {entity : ρ → ε} {stmt : Select ρ} (hcollate : columns.collate.Injective)
    (hids : (stmt.source.map fun r ↦ columns.idColumn (entity r)).Nodup) :
    (stmt.matching.map fun r ↦ columns.sortKey (entity r)).Nodup := by
  have hmatching : (stmt.matching.map fun r ↦ columns.idColumn (entity r)).Nodup :=
    hids.sublist (List.filter_sublist.map _)
  refine List.Nodup.of_map (fun key : DateTime ×ₗ κ ↦ (ofLex key).2) ?_
  rw [List.map_map]
  have hcollated := hmatching.map hcollate
  rwa [List.map_map] at hcollated

theorem paginateCursor_traverses {entity : ρ → ε} {stmt : Select ρ} {limit : ℕ} (hlimit : 1 ≤ limit)
    (hcollate : columns.collate.Injective)
    (hids : (stmt.source.map fun r ↦ columns.idColumn (entity r)).Nodup)
    (hiso : ∀ r ∈ stmt.source, iso.Inverts (columns.sortColumn (entity r))) :
    ∃ expected, expected.Perm stmt.matching ∧
      expected.Pairwise (fun a b ↦ columns.sortKey (entity b) < columns.sortKey (entity a)) ∧
      TraversesExactly (paginateCursor columns iso entity stmt limit) limit expected := by
  have hkeys := nodup_sortKey hcollate hids
  refine ⟨_, descending_perm _ _, descending_pairwise (fun r ↦ columns.sortKey (entity r)) hkeys, ?_⟩
  exact (standing_paginateCursor hlimit hkeys hiso).traverses hlimit .start

end Listing

/-- Following the cursors reads every matching row once, in order, whatever the sort values are; and a cursor
says what it was made from. -/
theorem keyset_traversal_is_exact {ε κ : Type} [LinearOrder κ] (columns : Columns ε κ) (iso : IsoFormat)
    (hcollate : columns.collate.Injective) :
    (∀ value rowId, iso.Inverts value →
      decodeCursor iso (encodeCursor iso value rowId) = .ok (value, rowId)) ∧
    (∀ (stmt : Select ε) (limit : ℕ), 1 ≤ limit → (stmt.source.map columns.idColumn).Nodup →
      (∀ e ∈ stmt.source, iso.Inverts (columns.sortColumn e)) →
      ∃ expected, expected.Perm stmt.matching ∧
        expected.Pairwise (fun a b ↦ columns.sortKey b < columns.sortKey a) ∧
        TraversesExactly (paginateCursorScalars columns iso stmt limit) limit expected) ∧
    ∀ (β : Type) (stmt : Select (ε × β)) (limit : ℕ), 1 ≤ limit →
      (stmt.source.map fun r ↦ columns.idColumn r.1).Nodup →
      (∀ r ∈ stmt.source, iso.Inverts (columns.sortColumn r.1)) →
      ∃ expected, expected.Perm stmt.matching ∧
        expected.Pairwise (fun a b ↦ columns.sortKey b.1 < columns.sortKey a.1) ∧
        TraversesExactly (paginateCursorRows columns iso stmt limit) limit expected := by
  refine ⟨fun value rowId hiso ↦ decodeCursor_encodeCursor hiso rowId, ?_, ?_⟩
  · intro stmt limit hlimit hids hiso
    exact paginateCursor_traverses hlimit hcollate hids hiso
  · intro β stmt limit hlimit hids hiso
    exact paginateCursor_traverses hlimit hcollate hids hiso

/-- Two notifications of one instant, and an older one. -/
def tiedRows : Select (DateTime × Text) where
  source := [(1, "row-1".toList), (2, "row-2".toList), (2, "row-3".toList)]
  conditions := []

def bareColumns : Columns (DateTime × Text) Text := ⟨Prod.fst, Prod.snd, id⟩

/-- The instants of `tiedRows` as they are written. -/
def tiedFormat : IsoFormat where
  isoformat value :=
    if value = 1 then "1970-01-01T00:00:00.000001+00:00".toList
    else "1970-01-01T00:00:00.000002+00:00".toList
  fromisoformat x :=
    if x = "1970-01-01T00:00:00.000001+00:00".toList then some 1
    else if x = "1970-01-01T00:00:00.000002+00:00".toList then some 2
    else none

/-- The same rows, each with the name of its reader. -/
def tiedPairs : Select ((DateTime × Text) × String) where
  source := tiedRows.source.map (·, "reader")
  conditions := []

theorem keyset_traversal_is_exact_tied :
    decodeCursor tiedFormat (encodeCursor tiedFormat 2 "row-2".toList) = .ok (2, "row-2".toList) ∧
    (∃ expected, expected.Perm tiedRows.matching ∧
      expected.Pairwise (fun a b ↦ bareColumns.sortKey b < bareColumns.sortKey a) ∧
      TraversesExactly (paginateCursorScalars bareColumns tiedFormat tiedRows 1) 1 expected) ∧
    ∃ expected, expected.Perm tiedPairs.matching ∧
      expected.Pairwise (fun a b ↦ bareColumns.sortKey b.1 < bareColumns.sortKey a.1) ∧
      TraversesExactly (paginateCursorRows bareColumns tiedFormat tiedPairs 2) 2 expected := by
  obtain ⟨hcodec, hscalars, hrows⟩ :=
    keyset_traversal_is_exact bareColumns tiedFormat Function.injective_id
  have hiso : ∀ e ∈ tiedRows.source, tiedFormat.Inverts (bareColumns.sortColumn e) := by
    unfold IsoFormat.Inverts
    decide +kernel
  refine ⟨hcodec 2 _ (hiso (2, "row-2".toList) (by decide)), hscalars tiedRows 1 le_rfl ?_ hiso,
    hrows String tiedPairs 2 (by decide) ?_ ?_⟩
  · decide +kernel
  · decide +kernel
  · exact List.forall_mem_map.2 hiso

end GenericApp
