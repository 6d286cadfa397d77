import GenericApp.Scaffold.Wiring

/-!
# The entries of a marked block

What one call does with the entries of the block. An entry that stands there whole is cut out whole and
collected whole: the lines in it are indented more than its closing, which is therefore the first closing that
is found (`cutAt_entryInner`). Two more facts are about any block. No line that is written is written twice, and
none holds the character with which the marks begin, since neither keys nor generated lines do
(`mark_notMem_rebuiltLines`, `mark_notMem_withEntry`).
-/

namespace GenericApp

open Py

variable {setOrder : List Text → List Text} {names : ModuleNames} {key : Text}

/-! ### Keys -/

/-- A key that ends where it seems to. -/
def ModuleNames.IsPlain (names : ModuleNames) : Prop := '\n' ∉ names.key

instance (names : ModuleNames) : Decidable names.IsPlain := inferInstanceAs (Decidable (_ ∉ _))

theorem toNat_of_isKeyChar {c : Char} (h : isKeyChar c = true) : 48 ≤ c.toNat ∧ c.toNat ≤ 122 := by
  simp only [isKeyChar, Bool.or_eq_true, Char.isDigit, Bool.and_eq_true, decide_eq_true_eq] at h
  obtain (hlower | ⟨hlow, hhigh⟩) | rfl := h
  · obtain ⟨hlow, hhigh⟩ := Bool.and_eq_true_iff.1 (show (_ && _) = true from hlower)
    have h1 : 97 ≤ c.toNat := UInt32.le_iff_toNat_le.1 (of_decide_eq_true hlow)
    have h2 : c.toNat ≤ 122 := UInt32.le_iff_toNat_le.1 (of_decide_eq_true hhigh)
    omega
  · have h1 : 48 ≤ c.toNat := UInt32.le_iff_toNat_le.1 hlow
    have h2 : c.toNat ≤ 57 := UInt32.le_iff_toNat_le.1 hhigh
    omega
  · decide

/-- What a key is made of is neither a mark nor a quote, and ends no line. -/
theorem isLine_of_isKeyChar {x : Text} (h : ∀ c ∈ x, isKeyChar c = true) :
    IsLine x ∧ '"' ∉ x ∧ '#' ∉ x := by
  refine ⟨fun c hc ↦ ?_, fun hc ↦ absurd (h _ hc) (by decide), fun hc ↦ absurd (h _ hc) (by decide)⟩
  obtain ⟨hlow, hhigh⟩ := toNat_of_isKeyChar (h c hc)
  rw [isLineBreak]
  simp only [decide_eq_false_iff_not]
  omega

/-- A key is made of its characters, and at most one newline at its end. -/
theorem ModuleNames.key_eq (names : ModuleNames) :
    ∃ word : Text, word ≠ [] ∧ (∀ c ∈ word, isKeyChar c = true) ∧
      (names.key = word ∨ names.key = word ++ ['\n']) := by
  obtain ⟨key, hvalid⟩ := names
  match key with
  | c :: cs =>
    simp only [moduleKeyMatches, Bool.and_eq_true, Bool.or_eq_true, decide_eq_true_eq] at hvalid
    obtain ⟨hc, hend⟩ := hvalid
    refine ⟨c :: cs.takeWhile isKeyChar, List.cons_ne_nil _ _, fun d hd ↦ ?_, ?_⟩
    · obtain rfl | hd := List.mem_cons.1 hd
      · simp [isKeyChar, hc]
      · exact List.mem_takeWhile_imp hd
    · have hsplit := List.takeWhile_append_dropWhile (p := isKeyChar) (l := cs)
      obtain hend | hend := hend
      · left
        show c :: cs = _
        rw [hend, List.append_nil] at hsplit
        rw [hsplit]
      · right
        show c :: cs = _
        rw [hend] at hsplit
        rw [List.cons_append, hsplit]

theorem ModuleNames.IsPlain.chars (h : names.IsPlain) :
    names.key ≠ [] ∧ ∀ c ∈ names.key, isKeyChar c = true := by
  obtain ⟨word, hne, hword, heq | heq⟩ := names.key_eq
  · rw [heq]
    exact ⟨hne, hword⟩
  · exact absurd (heq ▸ List.mem_append_right word (List.mem_singleton_self _)) h

theorem mark_notMem_key (names : ModuleNames) : '#' ∉ names.key := by
  obtain ⟨word, -, hword, heq | heq⟩ := names.key_eq
  · rw [heq]
    exact (isLine_of_isKeyChar hword).2.2
  · rw [heq]
    simpa using (isLine_of_isKeyChar hword).2.2

/-! ### One entry -/

theorem isBlank_eq_false {x : Text} {c : Char} (hc : c ∈ x) (hspace : isSpace c = false) :
    isBlank x = false :=
  List.all_eq_false.2 ⟨c, hc, by rw [hspace]; exact Bool.false_ne_true⟩

/-- A generated line with the key in it. -/
theorem isLine_append {opening closing : Text} (hopening : IsLine opening) (hkey : IsLine key)
    (hclosing : IsLine closing) {c : Char} (hc : c ∈ opening) (hspace : isSpace c = false) :
    IsLine (opening ++ (key ++ closing)) ∧ isBlank (opening ++ (key ++ closing)) = false := by
  refine ⟨fun d hd ↦ ?_, isBlank_eq_false (List.mem_append_left _ hc) hspace⟩
  obtain hd | hd := List.mem_append.1 hd
  · exact hopening d hd
  · obtain hd | hd := List.mem_append.1 hd
    · exact hkey d hd
    · exact hclosing d hd

instance (x : Text) : Decidable (IsLine x) := List.decidableBAll _ x

theorem isLine_contributionLines (hkey : IsLine key) :
    ∀ l ∈ contributionLines key, IsLine l ∧ isBlank l = false := by
  intro l hl
  simp only [contributionLines, List.mem_cons, List.not_mem_nil, or_false] at hl
  obtain rfl | rfl | rfl | rfl | rfl | rfl := hl
  · exact isLine_append (c := '"') (by decide) hkey (by decide) (by decide) (by decide)
  · exact isLine_append (c := 'k') (by decide) hkey (by decide) (by decide) (by decide)
  · exact isLine_append (c := 'i') (by decide) hkey (by decide) (by decide) (by decide)
  · exact isLine_append (c := 'p') (by decide) hkey (by decide) (by decide) (by decide)
  · exact isLine_append (c := 't') (by decide) hkey (by decide) (by decide) (by decide)
  · decide

theorem nodup_contributionLines (key : Text) : (contributionLines key).Nodup := by
  simp [contributionLines]

theorem mark_notMem_contribution (h : '#' ∉ key) : '#' ∉ contribution key := by
  simp [contribution, contributionLines, joinLines_cons_cons, h]

/-- A plain key has six lines. -/
theorem splitLines_contribution (hkey : IsLine key) :
    splitLines (contribution key) = contributionLines key := by
  refine splitLines_joinLines fun l hl ↦ ?_
  obtain ⟨hline, hblank⟩ := isLine_contributionLines hkey l hl
  refine ⟨hline, ?_⟩
  rintro rfl
  exact Bool.false_ne_true hblank.symm

/-- The lines of an entry for a key that ends in a newline. -/
def brokenLines (word : Text) : List Text :=
  [ "    \"".toList ++ word, "\": RouterContribution(".toList,
    "        key=\"".toList ++ word, "\",".toList,
    "        import_path=\"backend.modules.".toList ++ word, ".api.router\",".toList,
    "        prefix=\"/".toList ++ word, "\",".toList,
    "        tags=(\"".toList ++ word, "\",),".toList,
    "    ),".toList ]

theorem splitLines_broken {word : Text} (hword : IsLine word) :
    splitLines (contribution (word ++ ['\n'])) = brokenLines word := by
  have hjoin : contribution (word ++ ['\n']) = joinLines (brokenLines word) := by
    simp [contribution, contributionLines, joinLines_cons_cons, brokenLines]
  have happend {opening : Text} (hopening : IsLine opening) (hne : opening ≠ []) :
      IsLine (opening ++ word) ∧ opening ++ word ≠ [] := by
    refine ⟨fun c hc ↦ ?_, List.append_ne_nil_of_left_ne_nil hne _⟩
    obtain hc | hc := List.mem_append.1 hc
    · exact hopening c hc
    · exact hword c hc
  rw [hjoin]
  refine splitLines_joinLines fun l hl ↦ ?_
  simp only [brokenLines, List.mem_cons, List.not_mem_nil, or_false] at hl
  obtain rfl | rfl | rfl | rfl | rfl | rfl | rfl | rfl | rfl | rfl | rfl := hl
  · exact happend (by decide) (by decide)
  · decide
  · exact happend (by decide) (by decide)
  · decide
  · exact happend (by decide) (by decide)
  · decide
  · exact happend (by decide) (by decide)
  · decide
  · exact happend (by decide) (by decide)
  · decide
  · decide

/-- Whatever the key, the entry ends in the same line. -/
theorem closing_mem_splitLines (names : ModuleNames) :
    "    ),".toList ∈ splitLines (contribution names.key) := by
  obtain ⟨word, -, hword, heq | heq⟩ := names.key_eq
  · rw [heq, splitLines_contribution (isLine_of_isKeyChar hword).1]
    exact List.mem_of_getLast? rfl
  · rw [heq, splitLines_broken (isLine_of_isKeyChar hword).1]
    exact List.mem_of_getLast? rfl

/-- A key that ends in a newline gives two lines that are alike. -/
theorem isPlain_of_nodup (h : (splitLines (contribution names.key)).Nodup) : names.IsPlain := by
  obtain ⟨word, -, hword, heq | heq⟩ := names.key_eq
  · rw [ModuleNames.IsPlain, heq]
    exact newline_notMem_of_isLine (isLine_of_isKeyChar hword).1
  · rw [heq, splitLines_broken (isLine_of_isKeyChar hword).1] at h
    have hdrop := h.sublist (List.drop_sublist 3 _)
    exact absurd (List.mem_of_getElem? (i := 3) rfl) (List.nodup_cons.1 hdrop).1

/-- The lines between the first and the last one of an entry. -/
def innerLines (key : Text) : List Text := ((contributionLines key).drop 1).dropLast

/-- What stands between the opening and the closing of an entry. -/
def entryInner (key : Text) : Text := (innerLines key).flatMap ('\n' :: ·)

theorem contribution_eq (key : Text) : contribution key =
    "    \"".toList ++ (key ++ ("\": RouterContribution(".toList ++ (entryInner key ++ entryClosing))) := by
  have hclosing : entryClosing = '\n' :: "    ),".toList := rfl
  simp only [contribution, contributionLines, joinLines_cons_cons, joinLines_singleton, entryInner,
    innerLines, List.drop_succ_cons, List.drop_zero, List.dropLast_cons_cons, List.dropLast_singleton,
    List.flatMap_cons, List.flatMap_nil, List.append_assoc, List.cons_append, List.nil_append, hclosing]

theorem newline_cons_contribution (key : Text) :
    '\n' :: contribution key = entryOpening key ++ (entryInner key ++ entryClosing) := by
  have hopening : entryOpening key =
      '\n' :: ("    \"".toList ++ (key ++ "\": RouterContribution(".toList)) := rfl
  rw [contribution_eq, hopening, List.cons_append, List.append_assoc, List.append_assoc]

/-- The lines in it are indented more than its closing. -/
theorem indented_of_mem_innerLines {l : Text} (h : l ∈ innerLines key) :
    ∃ rest, l = "        ".toList ++ rest := by
  simp only [innerLines, contributionLines, List.drop_succ_cons, List.drop_zero, List.dropLast_cons_cons,
    List.dropLast_singleton, List.mem_cons, List.not_mem_nil, or_false] at h
  obtain rfl | rfl | rfl | rfl := h
  · exact ⟨"key=\"".toList ++ (key ++ "\",".toList), by simp⟩
  · exact ⟨"import_path=\"backend.modules.".toList ++ (key ++ ".api.router\",".toList), by simp⟩
  · exact ⟨"prefix=\"/".toList ++ (key ++ "\",".toList), by simp⟩
  · exact ⟨"tags=(\"".toList ++ (key ++ "\",),".toList), by simp⟩

/-- The closing of an entry is not found in lines that are indented more. -/
theorem cutAt_indented {lines : List Text}
    (hlines : ∀ l ∈ lines, '\n' ∉ l ∧ ∃ rest, l = "        ".toList ++ rest) (x : Text) :
    cutAt entryClosing (lines.flatMap ('\n' :: ·) ++ (entryClosing ++ x)) =
      some (lines.flatMap ('\n' :: ·), x) := by
  induction lines with
  | nil => exact cutAt_self (by decide) x
  | cons l lines ih =>
    obtain ⟨hnewline, rest, hrest⟩ := hlines l List.mem_cons_self
    have hclosing : entryClosing = '\n' :: "    ),".toList := rfl
    have hnot : ¬entryClosing <+: '\n' :: (l ++ (lines.flatMap ('\n' :: ·) ++ (entryClosing ++ x))) := by
      rw [hclosing, hrest]
      simp
    have htail := ih fun m hm ↦ hlines m (List.mem_cons_of_mem l hm)
    rw [List.flatMap_cons, List.cons_append, List.cons_append, List.append_assoc,
      cutAt_cons_of_not hnot, hclosing, cutAt_append_of_notMem hnewline, ← hclosing, htail]
    rfl

/-- The first closing of an entry is its own. -/
theorem cutAt_entryInner (hkey : IsLine key) (x : Text) :
    cutAt entryClosing (entryInner key ++ (entryClosing ++ x)) = some (entryInner key, x) := by
  refine cutAt_indented (fun l hl ↦ ⟨?_, indented_of_mem_innerLines hl⟩) x
  have hmem : l ∈ contributionLines key :=
    List.mem_of_mem_drop (List.dropLast_subset _ hl)
  exact newline_notMem_of_isLine (isLine_contributionLines hkey l hmem).1

/-- An entry is cut out whole. -/
theorem removeEntry_contribution (hkey : IsLine key) (x : Text) :
    removeEntry key ('\n' :: (contribution key ++ x)) = '\n' :: x := by
  have hne : entryOpening key ≠ [] := List.append_ne_nil_of_left_ne_nil (by decide) _
  have hfound : between (entryOpening key) entryClosing ('\n' :: (contribution key ++ x)) =
      some ⟨[], entryInner key, x⟩ := by
    refine between_eq_some_iff.2 ⟨entryInner key ++ (entryClosing ++ x), ?_, cutAt_entryInner hkey x⟩
    rw [← List.cons_append, newline_cons_contribution, List.append_assoc, List.append_assoc]
    exact cutAt_self hne _
  rw [removeEntry, hfound]
  rfl

/-- A text without quotes has no entry. -/
theorem removeEntry_of_notMem {body : Text} (h : '"' ∉ body) : removeEntry key body = body := by
  rw [removeEntry, between_eq_none (c := '"') _ h]
  exact List.mem_append_left _ (by decide)

/-- What stands before the first quote, and from it on. -/
theorem takeWhile_quote (hquote : '"' ∉ key) (x : Text) :
    (key ++ '"' :: x).takeWhile (· ≠ '"') = key ∧ (key ++ '"' :: x).dropWhile (· ≠ '"') = '"' :: x := by
  have hall : ∀ c ∈ key, decide (c ≠ '"') = true :=
    fun c hc ↦ decide_eq_true fun h ↦ hquote (h ▸ hc)
  refine ⟨?_, ?_⟩
  · rw [List.takeWhile_append_of_pos hall, List.takeWhile_cons_of_neg (by decide), List.append_nil]
  · rw [List.dropWhile_append_of_pos hall, List.dropWhile_cons_of_neg (by decide)]

/-- An entry is collected whole. -/
theorem matchEntry_contribution (hne : key ≠ []) (hkey : IsLine key) (hquote : '"' ∉ key) (x : Text) :
    matchEntry (contribution key ++ x) = some (contribution key) := by
  let middle := "\": RouterContribution(".toList
  have htext : contribution key ++ x =
      "    \"".toList ++ (key ++ (middle ++ (entryInner key ++ (entryClosing ++ x)))) := by
    rw [contribution_eq]
    simp only [middle, List.append_assoc]
  obtain ⟨htake, hdrop⟩ := takeWhile_quote hquote (middle.tail ++ (entryInner key ++ (entryClosing ++ x)))
  have hquoted : ("    \"".toList ++ (key ++ (middle ++ (entryInner key ++ (entryClosing ++ x))))).drop
      "    \"".toList.length = key ++ '"' :: (middle.tail ++ (entryInner key ++ (entryClosing ++ x))) :=
    List.drop_left
  have hprefix : "    \"".toList <+: contribution key ++ x ∧ key ≠ [] ∧
      middle <+: '"' :: (middle.tail ++ (entryInner key ++ (entryClosing ++ x))) :=
    ⟨⟨_, htext.symm⟩, hne, ⟨entryInner key ++ (entryClosing ++ x), rfl⟩⟩
  have hrest : ('"' :: (middle.tail ++ (entryInner key ++ (entryClosing ++ x)))).drop middle.length =
      entryInner key ++ (entryClosing ++ x) := @List.drop_left _ middle _
  rw [htext] at hprefix
  rw [matchEntry, htext]
  simp only [hquoted, htake, hdrop]
  rw [if_pos hprefix, hrest, cutAt_entryInner hkey, contribution_eq]

theorem entriesFrom_append (l x : Text) : entriesFrom l.length (l ++ x) = entriesFrom 0 x := by
  induction l with
  | nil => rfl
  | cons c l ih => exact ih

theorem entriesFrom_contribution (hne : key ≠ []) (hkey : IsLine key) (hquote : '"' ∉ key) :
    entriesFrom 0 ('\n' :: (contribution key ++ ['\n'])) = [contribution key] := by
  have hnone : matchEntry ('\n' :: (contribution key ++ ['\n'])) = none := by
    rw [matchEntry]
    refine if_neg fun h ↦ ?_
    have hspace : ' ' = '\n' := (List.cons_prefix_cons.1 h.1).1
    exact absurd hspace (by decide)
  obtain ⟨rest, hrest⟩ : ∃ rest, contribution key = ' ' :: rest := ⟨_, contribution_eq key⟩
  have hmatch := matchEntry_contribution hne hkey hquote ['\n']
  rw [entriesFrom, hnone]
  show entriesFrom 0 (contribution key ++ ['\n']) = [contribution key]
  rw [hrest, List.cons_append] at hmatch ⊢
  rw [entriesFrom, hmatch]
  show (' ' :: rest) :: entriesFrom rest.length (rest ++ ['\n']) = [' ' :: rest]
  rw [entriesFrom_append]
  rfl

/-! ### The lines of a block with one entry -/

theorem existingLines_of_isBlank {body : Text} (h : isBlank body = true) : existingLines body = [] := by
  refine List.filter_eq_nil_iff.2 fun l hl ↦ ?_
  have hblank : isBlank l = true :=
    List.all_eq_true.2 fun c hc ↦ List.all_eq_true.1 h c ((mem_splitLines hl).2 c hc)
  simp [hblank]

/-- In a block that is blank once the entry of a module is cut out, the new entry stands alone. -/
theorem withEntry_of_isBlank {body : Text} (h : isBlank (removeEntry key body) = true) :
    withEntry key body = '\n' :: (contribution key ++ ['\n']) := by
  rw [withEntry, existingLines_of_isBlank h]
  rfl

theorem stripNewlines_contribution (key : Text) :
    stripNewlines ('\n' :: (contribution key ++ ['\n'])) = contribution key := by
  obtain ⟨init, hinit⟩ : ∃ init, contribution key = ' ' :: (init ++ [',']) := by
    refine ⟨("   \"".toList ++ (key ++ ("\": RouterContribution(".toList ++
      (entryInner key ++ "\n    )".toList)))), ?_⟩
    have hopening : "    \"".toList = ' ' :: "   \"".toList := rfl
    have hclosing : entryClosing = "\n    )".toList ++ [','] := rfl
    rw [contribution_eq, hopening, hclosing]
    simp only [List.cons_append, List.append_assoc]
  rw [hinit, stripNewlines, List.dropWhile_cons_of_pos (by decide), List.cons_append,
    List.dropWhile_cons_of_neg (by decide), dropNewlines]
  simp

theorem rebuiltLines_contribution (hset : ∀ chunks, (setOrder chunks).Perm chunks.dedup)
    (hne : key ≠ []) (hkey : IsLine key) (hquote : '"' ∉ key) :
    rebuiltLines setOrder ('\n' :: (contribution key ++ ['\n'])) = contributionLines key := by
  have hone : setOrder [contribution key] = [contribution key] :=
    List.perm_singleton.1 ((hset [contribution key]).trans (by simp))
  have hsort : [contribution key].mergeSort (fun a b ↦ sortKey a ≤ sortKey b) = [contribution key] :=
    List.mergeSort_singleton _
  have hblank : isBlank ('\n' :: (contribution key ++ ['\n'])) = false := by
    refine isBlank_eq_false (c := '"') ?_ (by decide)
    rw [contribution_eq]
    exact List.mem_cons_of_mem _ (List.mem_append_left _ (List.mem_append_left _ (by decide)))
  rw [rebuiltLines, entriesFrom_contribution hne hkey hquote, hone]
  simp only [hsort, List.cons_ne_self, if_false, joinLines_singleton, hblank, Bool.false_eq_true]
  rw [stripNewlines_contribution, splitLines_contribution hkey]

/-! ### What a call can write -/

theorem prefix_of_matchEntry {x entry : Text} (h : matchEntry x = some entry) : entry <+: x := by
  rw [matchEntry] at h
  split at h
  · next hcond =>
    obtain ⟨hopening, -, hmiddle⟩ := hcond
    split at h
    · cases h
    · next inner rest hcut =>
      obtain rfl := Option.some.inj h
      refine ⟨rest, ?_⟩
      have hinner := cutAt_sound hcut
      have hquoted := List.takeWhile_append_dropWhile (p := (· ≠ '"'))
        (l := x.drop "    \"".toList.length)
      calc _ = "    \"".toList ++ ((x.drop "    \"".toList.length).takeWhile (· ≠ '"') ++
              ("\": RouterContribution(".toList ++ (inner ++ (entryClosing ++ rest)))) := by
            simp only [List.append_assoc]
        _ = "    \"".toList ++ x.drop "    \"".toList.length := by
            rw [← hinner, List.prefix_iff_eq_append.1 hmiddle, hquoted]
        _ = x := List.prefix_iff_eq_append.1 hopening
  · cases h

theorem mem_of_mem_entriesFrom {x entry : Text} {skip : ℕ} (h : entry ∈ entriesFrom skip x) :
    ∀ c ∈ entry, c ∈ x := by
  fun_induction entriesFrom skip x with
  | case1 => exact absurd h List.not_mem_nil
  | case2 skip d x ih => exact fun c hc ↦ List.mem_cons_of_mem d (ih h c hc)
  | case3 d x hnone ih => exact fun c hc ↦ List.mem_cons_of_mem d (ih h c hc)
  | case4 d x entry' hsome ih =>
    obtain rfl | h := List.mem_cons.1 h
    · exact fun c hc ↦ (prefix_of_matchEntry hsome).subset hc
    · exact fun c hc ↦ List.mem_cons_of_mem d (ih h c hc)

theorem mem_of_mem_dropNewlines {x : Text} {c : Char} (h : c ∈ dropNewlines x) : c ∈ x :=
  List.mem_reverse.1 ((List.dropWhile_sublist _).subset (List.mem_reverse.1 h))

theorem mark_notMem_rebuiltLines (hset : ∀ chunks, (setOrder chunks).Perm chunks.dedup) {body : Text}
    (hbody : '#' ∉ body) : ∀ l ∈ rebuiltLines setOrder body, IsLine l ∧ '#' ∉ l := by
  intro l hl
  have hcut (rebuilt : Text) (hmark : '#' ∉ rebuilt)
      (hl : l ∈ if isBlank rebuilt then [] else splitLines (stripNewlines rebuilt)) :
      IsLine l ∧ '#' ∉ l := by
    split at hl
    · exact absurd hl List.not_mem_nil
    · obtain ⟨hline, hmem⟩ := mem_splitLines hl
      exact ⟨hline, fun h ↦
        hmark ((List.dropWhile_sublist _).subset (mem_of_mem_dropNewlines (hmem _ h)))⟩
  refine hcut _ ?_ hl
  split
  · decide
  · intro hrebuilt
    have hjoin : '#' ∈ joinLines ((setOrder (entriesFrom 0 body)).mergeSort fun a b ↦
        sortKey a ≤ sortKey b) := by simpa using hrebuilt
    obtain hnewline | ⟨entry, hentry, hmark⟩ := mem_joinLines hjoin
    · exact absurd hnewline (by decide)
    · have hentry : entry ∈ entriesFrom 0 body :=
        List.mem_dedup.1 ((hset _).mem_iff.1 ((List.mergeSort_perm _ _).mem_iff.1 hentry))
      exact hbody (mem_of_mem_entriesFrom hentry _ hmark)

theorem mark_notMem_removeEntry {body : Text} (hbody : '#' ∉ body) : '#' ∉ removeEntry key body := by
  rw [removeEntry]
  split
  · exact hbody
  · next found hfound =>
    rw [between_sound hfound, Enclosed.text] at hbody
    simp only [List.mem_append, not_or] at hbody
    simp [hbody.1, hbody.2.2.2.2]

theorem mark_notMem_withEntry {body : Text} (hbody : '#' ∉ body) (hkey : '#' ∉ key) :
    '#' ∉ withEntry key body := by
  have hcleaned : '#' ∉ joinLines (existingLines (removeEntry key body)) := by
    intro h
    obtain hnewline | ⟨l, hl, hmark⟩ := mem_joinLines h
    · exact absurd hnewline (by decide)
    · exact mark_notMem_removeEntry hbody ((mem_splitLines (List.mem_filter.1 hl).1).2 _ hmark)
  have hcontribution := mark_notMem_contribution hkey
  rw [withEntry]
  split
  · simp [hcontribution]
  · have hrstrip : '#' ∉ rstripText (joinLines (existingLines (removeEntry key body))) := fun h ↦
      hcleaned (List.mem_reverse.1 ((List.dropWhile_sublist _).subset (List.mem_reverse.1 h)))
    simp [hcontribution, hrstrip]

end GenericApp
