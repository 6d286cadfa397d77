import Mathlib.Data.List.Infix

/-!
# Trees of directories and files

A file system without links: at each path there is nothing, a directory, or a file with its contents. Whatever
has something below it is a directory, and so is the root; both are fields of `FileTree`, so that each operation
checks what it needs and has no value where an operating system would refuse.

A path is the list of its names, the innermost first: the parent of a path is its tail, and what lies on the way
from the root to a path are its suffixes. `makeDirs` makes the directories that are missing on the way.
`prune` goes the other way and removes directories as long as they are empty. What it leaves on its way has
something in it (`hasChild_prune`), and it touches nothing that lies elsewhere (`node_prune_of_not_suffix`).
-/

/-- What is at a path. -/
inductive FileNode (B : Type)
  | dir
  | file (content : B)
deriving DecidableEq

/-- A file system with names in `N` and file contents in `B`. -/
structure FileTree (N B : Type) [DecidableEq N] where
  entries : List (List N × FileNode B)
  /-- The root is a directory. -/
  root : entries.lookup [] = some .dir
  /-- And so is whatever has something below it. -/
  closed : ∀ name path, (entries.lookup (name :: path)).isSome → entries.lookup path = some .dir

namespace FileTree

variable {N B : Type} [DecidableEq N] (T : FileTree N B)

/-- What is at a path. -/
def node (path : List N) : Option (FileNode B) := T.entries.lookup path

/-- There is something in a directory. -/
def hasChild (path : List N) : Bool :=
  T.entries.any fun e ↦ match e.1 with
    | [] => false
    | _ :: parent => parent == path

/-- The same directories, and the same files with the same contents. -/
def Same (T T' : FileTree N B) : Prop := ∀ path, T.node path = T'.node path

variable {T} {T' : FileTree N B} {path q : List N} {name : N}

theorem lookup_isSome_iff {entries : List (List N × FileNode B)} :
    (entries.lookup path).isSome ↔ ∃ e ∈ entries, e.1 = path := by
  induction entries with
  | nil => simp
  | cons e entries ih =>
    obtain ⟨k, n⟩ := e
    by_cases h : path = k
    · subst h
      simp
    · have hne : (path == k) = false := beq_eq_false_iff_ne.2 h
      rw [List.lookup_cons, hne]
      simp only [List.mem_cons, exists_eq_or_imp, Ne.symm h, false_or]
      exact ih

theorem hasChild_iff : T.hasChild path = true ↔ ∃ name, (T.node (name :: path)).isSome := by
  simp only [hasChild, List.any_eq_true, node, lookup_isSome_iff]
  constructor
  · rintro ⟨⟨p, n⟩, he, hp⟩
    match p with
    | name :: parent =>
      obtain rfl : parent = path := by simpa using hp
      exact ⟨name, _, he, rfl⟩
  · rintro ⟨name, e, he, hp⟩
    exact ⟨e, he, by rw [hp]; simp⟩

theorem node_root : T.node [] = some .dir := T.root

theorem node_parent (h : (T.node (name :: path)).isSome) : T.node path = some .dir :=
  T.closed name path h

/-- What lies on the way to something is a directory. -/
theorem node_of_suffix (h : (T.node path).isSome) (hq : q <:+ path) (hne : q ≠ path) :
    T.node q = some .dir := by
  induction path with
  | nil => exact absurd (List.suffix_nil.1 hq) hne
  | cons name path ih =>
    obtain rfl | hq := List.suffix_cons_iff.1 hq
    · exact absurd rfl hne
    · have hparent := node_parent h
      by_cases heq : q = path
      · rw [heq, hparent]
      · exact ih (by rw [hparent]; rfl) hq heq

/-- Paths at which there is something are not longer than some bound. -/
theorem exists_length_le (T : FileTree N B) : ∃ bound, ∀ path, (T.node path).isSome →
    path.length ≤ bound := by
  have hentries : ∀ entries : List (List N × FileNode B), ∃ bound, ∀ e ∈ entries,
      e.1.length ≤ bound := by
    intro entries
    induction entries with
    | nil => exact ⟨0, fun _ h ↦ absurd h List.not_mem_nil⟩
    | cons e entries ih =>
      obtain ⟨bound, hbound⟩ := ih
      refine ⟨max e.1.length bound, fun e' he' ↦ ?_⟩
      obtain rfl | he' := List.mem_cons.1 he'
      · exact Nat.le_max_left _ _
      · exact (hbound e' he').trans (Nat.le_max_right _ _)
  obtain ⟨bound, hbound⟩ := hentries T.entries
  refine ⟨bound, fun path h ↦ ?_⟩
  obtain ⟨e, he, rfl⟩ := lookup_isSome_iff.1 h
  exact hbound e he

/-! ### Writing at one path -/

/-- The entries with another value, or none, at a path. -/
def assigned (entries : List (List N × FileNode B)) (path : List N) :
    Option (FileNode B) → List (List N × FileNode B)
  | none => entries.filter fun e ↦ e.1 ≠ path
  | some n => (path, n) :: entries.filter fun e ↦ e.1 ≠ path

theorem lookup_filter {entries : List (List N × FileNode B)} :
    (entries.filter fun e ↦ e.1 ≠ path).lookup q = if q = path then none else entries.lookup q := by
  induction entries with
  | nil => simp
  | cons e entries ih =>
    obtain ⟨k, n⟩ := e
    by_cases hk : k = path
    · rw [List.filter_cons_of_neg (by simpa using hk), ih]
      split
      · rfl
      · next hq =>
        have hne : (q == k) = false := beq_eq_false_iff_ne.2 (hk ▸ hq)
        rw [List.lookup_cons, hne]
    · rw [List.filter_cons_of_pos (by simpa using hk), List.lookup_cons, List.lookup_cons, ih]
      by_cases hq : q = k
      · subst hq
        simp [hk]
      · have hne : (q == k) = false := beq_eq_false_iff_ne.2 hq
        rw [hne]

theorem lookup_assigned {entries : List (List N × FileNode B)} (v : Option (FileNode B)) :
    (assigned entries path v).lookup q = if q = path then v else entries.lookup q := by
  match v with
  | none => exact lookup_filter
  | some n =>
    rw [assigned, List.lookup_cons, lookup_filter]
    by_cases hq : q = path
    · simp [hq]
    · have hne : (q == path) = false := beq_eq_false_iff_ne.2 hq
      rw [hne, if_neg hq]
      simp [hq]

/-- The tree with another value at a path that may have it: a directory where something lies below, nothing where
there is no directory above, and a directory at the root. -/
def assign (T : FileTree N B) (path : List N) (v : Option (FileNode B))
    (hroot : path = [] → v = some .dir)
    (hparent : ∀ name q, path = name :: q → v.isSome → T.node q = some .dir)
    (hchild : ∀ name, (T.node (name :: path)).isSome → v = some .dir) : FileTree N B where
  entries := assigned T.entries path v
  root := by
    rw [lookup_assigned]
    split
    · next h => exact hroot h.symm
    · exact T.root
  closed := by
    intro name q h
    rw [lookup_assigned] at h ⊢
    by_cases hq : name :: q = path
    · rw [if_pos hq] at h
      have hne : q ≠ path := fun heq ↦ List.cons_ne_self name q (hq.trans heq.symm)
      rw [if_neg hne]
      exact hparent name q hq.symm h
    · rw [if_neg hq] at h
      split
      · next heq => exact hchild name (heq ▸ h)
      · exact T.closed name q h

theorem node_assign {v : Option (FileNode B)} (hroot hparent hchild) :
    (T.assign path v hroot hparent hchild).node q = if q = path then v else T.node q :=
  lookup_assigned v

/-! ### The operations -/

instance (v : Option (FileNode B)) : Decidable (v = some .dir) :=
  match v with
  | some .dir => isTrue rfl
  | some (.file _) => isFalse (nomatch ·)
  | none => isFalse (nomatch ·)

/-- `mkdir`: makes a directory in one that exists. -/
def mkdir (T : FileTree N B) : List N → Option (FileTree N B)
  | [] => none
  | name :: parent =>
    if h : T.node (name :: parent) = none ∧ T.node parent = some .dir then
      some (T.assign (name :: parent) (some .dir) (fun _ ↦ rfl)
        (fun _ _ heq _ ↦ (List.cons.inj heq).2 ▸ h.2) (fun _ _ ↦ rfl))
    else none

/-- Makes a file, or gives one that exists other contents. -/
def write (T : FileTree N B) : List N → B → Option (FileTree N B)
  | [], _ => none
  | name :: parent, content =>
    if h : T.node (name :: parent) ≠ some .dir ∧ T.node parent = some .dir then
      some (T.assign (name :: parent) (some (.file content)) (nomatch ·)
        (fun _ _ heq _ ↦ (List.cons.inj heq).2 ▸ h.2) (fun _ hchild ↦ absurd (node_parent hchild) h.1))
    else none

/-- `unlink`: removes a file. -/
def unlink (T : FileTree N B) : List N → Option (FileTree N B)
  | [] => none
  | name :: parent =>
    if h : T.node (name :: parent) ≠ some .dir ∧ T.node (name :: parent) ≠ none then
      some (T.assign (name :: parent) none (nomatch ·) (fun _ _ _ hsome ↦ nomatch hsome)
        (fun _ hchild ↦ absurd (node_parent hchild) h.1))
    else none

/-- `rmdir`: removes a directory that is empty. -/
def rmdir (T : FileTree N B) : List N → Option (FileTree N B)
  | [] => none
  | name :: parent =>
    if h : T.node (name :: parent) = some .dir ∧ T.hasChild (name :: parent) = false then
      some (T.assign (name :: parent) none (nomatch ·) (fun _ _ _ hsome ↦ nomatch hsome)
        (fun other hchild ↦ absurd (hasChild_iff.2 ⟨other, hchild⟩) (by simp [h.2])))
    else none

theorem mkdir_spec (h : T.mkdir path = some T') :
    T.node path = none ∧ ∀ q, T'.node q = if q = path then some .dir else T.node q := by
  match path with
  | name :: parent =>
    rw [mkdir] at h
    split at h
    · next hallowed =>
      obtain rfl := Option.some.inj h
      exact ⟨hallowed.1, fun q ↦ node_assign ..⟩
    · exact nomatch h

theorem write_spec {content : B} (h : T.write path content = some T') :
    T.node path ≠ some .dir ∧
      ∀ q, T'.node q = if q = path then some (.file content) else T.node q := by
  match path with
  | name :: parent =>
    rw [write] at h
    split at h
    · next hallowed =>
      obtain rfl := Option.some.inj h
      exact ⟨hallowed.1, fun q ↦ node_assign ..⟩
    · exact nomatch h

/-- A file that exists can be written. -/
theorem write_of_file {content : B} (h : T.node path = some (.file content)) (content' : B) :
    ∃ T', T.write path content' = some T' := by
  match path with
  | [] => exact nomatch node_root.symm.trans h
  | name :: parent =>
    have hallowed : T.node (name :: parent) ≠ some .dir ∧ T.node parent = some .dir :=
      ⟨by rw [h]; exact (nomatch ·), node_parent (by rw [h]; rfl)⟩
    rw [write, dif_pos hallowed]
    exact ⟨_, rfl⟩

/-- A file that exists can be removed. -/
theorem unlink_of_file {content : B} (h : T.node path = some (.file content)) :
    ∃ T', T.unlink path = some T' ∧ ∀ q, T'.node q = if q = path then none else T.node q := by
  match path with
  | [] => exact nomatch node_root.symm.trans h
  | name :: parent =>
    have hallowed : T.node (name :: parent) ≠ some .dir ∧ T.node (name :: parent) ≠ none :=
      ⟨by rw [h]; exact (nomatch ·), by rw [h]; exact (nomatch ·)⟩
    rw [unlink, dif_pos hallowed]
    exact ⟨_, rfl, fun q ↦ node_assign ..⟩

theorem rmdir_spec (h : T.rmdir path = some T') :
    T.hasChild path = false ∧ ∀ q, T'.node q = if q = path then none else T.node q := by
  match path with
  | name :: parent =>
    rw [rmdir] at h
    split at h
    · next hallowed =>
      obtain rfl := Option.some.inj h
      exact ⟨hallowed.2, fun q ↦ node_assign ..⟩
    · exact nomatch h

/-- A directory that cannot be removed has something in it. -/
theorem hasChild_of_rmdir (hdir : T.node (name :: path) = some .dir)
    (h : T.rmdir (name :: path) = none) : T.hasChild (name :: path) = true := by
  rw [rmdir] at h
  split at h
  · exact nomatch h
  · next hnot => exact Bool.of_not_eq_false fun hchild ↦ hnot ⟨hdir, hchild⟩

/-! ### Directories on the way -/

/-- `mkdir(parents=True, exist_ok=True)`. -/
def makeDirs (T : FileTree N B) : List N → Option (FileTree N B)
  | [] => some T
  | name :: parent =>
    match T.node (name :: parent) with
    | some .dir => some T
    | some (.file _) => none
    | none =>
      match T.makeDirs parent with
      | none => none
      | some T' => T'.mkdir (name :: parent)

theorem makeDirs_of_dir (h : T.node path = some .dir) : T.makeDirs path = some T := by
  match path with
  | [] => rfl
  | name :: parent => rw [makeDirs, h]

/-- Removes a directory and those on the way to it, from the innermost on, as long as they are empty. -/
def prune (T : FileTree N B) : List N → FileTree N B
  | [] => T
  | name :: parent =>
    match T.rmdir (name :: parent) with
    | none => T
    | some T' => T'.prune parent

/-- What lies elsewhere is not touched. -/
theorem node_prune_of_not_suffix (h : ¬q <:+ path) : (T.prune path).node q = T.node q := by
  induction path generalizing T with
  | nil => rfl
  | cons name path ih =>
    obtain ⟨hne, hq⟩ := not_or.1 (mt List.suffix_cons_iff.2 h)
    rw [prune]
    split
    · rfl
    · next T' hremoved => rw [ih hq, (rmdir_spec hremoved).2, if_neg hne]

/-- And nothing is made. -/
theorem node_prune_of_isSome (h : ((T.prune path).node q).isSome) :
    (T.prune path).node q = T.node q := by
  induction path generalizing T with
  | nil => rfl
  | cons name path ih =>
    rw [prune] at h ⊢
    split at h
    · rfl
    · next T' hremoved =>
      have hsame := ih h
      rw [hsame, (rmdir_spec hremoved).2] at h
      split at h
      · exact nomatch h
      · next hne => rw [hsame, (rmdir_spec hremoved).2, if_neg hne]

omit [DecidableEq N] in
/-- On the way to a path there is a next step. -/
theorem exists_cons_suffix (hq : q <:+ path) (hne : q ≠ path) : ∃ name, name :: q <:+ path := by
  obtain ⟨names, rfl⟩ := hq
  obtain rfl | ⟨init, name, rfl⟩ := names.eq_nil_or_concat
  · exact absurd rfl hne
  · exact ⟨name, init, by simp⟩

/-- A directory on the way to something has something in it. -/
theorem hasChild_of_suffix (h : (T.node path).isSome) (hq : q <:+ path) (hne : q ≠ path) :
    T.hasChild q = true := by
  obtain ⟨name, hname⟩ := exists_cons_suffix hq hne
  refine hasChild_iff.2 ⟨name, ?_⟩
  by_cases heq : name :: q = path
  · rw [heq]
    exact h
  · rw [node_of_suffix h hname heq]
    rfl

/-- A directory on the way that is left has something in it. -/
theorem hasChild_prune (hdir : T.node path = some .dir) (hq : q <:+ path) (hne : q ≠ [])
    (h : ((T.prune path).node q).isSome) : (T.prune path).hasChild q = true := by
  induction path generalizing T with
  | nil => exact absurd (List.suffix_nil.1 hq) hne
  | cons name path ih =>
    rw [prune] at h ⊢
    split at h
    · next hrefused =>
      by_cases heq : q = name :: path
      · rw [heq]
        exact hasChild_of_rmdir hdir hrefused
      · exact hasChild_of_suffix (by rw [hdir]; rfl) hq heq
    · next T' hremoved =>
      obtain heq | hq := List.suffix_cons_iff.1 hq
      · -- the innermost directory is gone
        have hlong : ¬q <:+ path := fun hsuffix ↦ by
          have hle := hsuffix.length_le
          rw [heq, List.length_cons] at hle
          omega
        rw [node_prune_of_not_suffix hlong, (rmdir_spec hremoved).2, if_pos heq] at h
        exact nomatch h
      · refine ih ?_ hq h
        rw [(rmdir_spec hremoved).2, if_neg (List.cons_ne_self name path).symm]
        exact node_parent (by rw [hdir]; rfl)

/-- Files stay. -/
theorem node_prune_of_file {content : B} (hdir : T.node path = some .dir)
    (h : T.node q = some (.file content)) : (T.prune path).node q = some (.file content) := by
  rw [node_prune_of_not_suffix, h]
  intro hq
  by_cases heq : q = path
  · rw [heq, hdir] at h
    exact nomatch h
  · rw [node_of_suffix (by rw [hdir]; rfl) hq heq] at h
    exact nomatch h

end FileTree
