import GenericApp.Rag.ChunkingService
import GenericApp.Rag.IndexHomogeneity

/-!
# What the key of an index version leaves out

Chunks of two configurations share an index version if the configurations have the same key. The key is
made of the parser, the chunker and the schema version, the provider, the model, the dimensions and the
chunking mode. The chunker reads more: the size and the overlap of the pieces, those of the child
windows, and, with parent-child chunking, whether it is aware of the document (the mode then says
`parent_child` either way).

* `behaveAlike_iff_cutAlike`: configurations with the same key chunk and embed alike, whatever the
  splitter and the tokenizer do, exactly if they also agree on what the key leaves out.
* `keys_are_unsound`: the default configuration and one with smaller pieces have the same key, and cut
  the same document differently.

The fields are joined by a bar, which a provider may contain as well; so the provider is one of the
fields on which the configurations have to agree. Given that, the rest of the text can be read from its
end.
-/

namespace GenericApp

open Py

/-! ### The text under the key -/

/-- The part of the text before the model. -/
def textHead (provider : String) : List Char :=
  ("parser_version=" ++ parserVersion ++ "|chunker_version=" ++ chunkerVersion ++
    "|embedding_schema_version=" ++ embeddingSchemaVersion ++ "|embedding_provider=" ++ provider ++
    "|embedding_model=").toList

/-- The text, cut at the bars before the dimensions and before the mode. -/
theorem toList_pipelineText (config : RagConfig) :
    (pipelineText config).toList =
      ((textHead config.embeddingProvider ++ config.embeddingModel.toList) ++
        '|' :: ("embedding_dimensions=".toList ++ (toString config.embeddingDimensions).toList)) ++
        '|' :: ("chunking_mode=".toList ++ (chunkingMode config).toList) := by
  simp only [pipelineText, textHead, String.intercalate_cons_cons, String.intercalate_singleton,
    String.toList_append, List.append_assoc, List.cons_append]
  rfl

/-- Where the texts and the providers are the same, so are the other fields in it. -/
theorem fields_of_pipelineText {c₁ c₂ : RagConfig} (htext : pipelineText c₁ = pipelineText c₂)
    (hprovider : c₁.embeddingProvider = c₂.embeddingProvider) :
    c₁.embeddingModel = c₂.embeddingModel ∧ c₁.embeddingDimensions = c₂.embeddingDimensions ∧
      chunkingMode c₁ = chunkingMode c₂ := by
  have hlist := congrArg String.toList htext
  rw [toList_pipelineText, toList_pipelineText, hprovider] at hlist
  have hmode (config : RagConfig) :
      '|' ∉ "chunking_mode=".toList ++ (chunkingMode config).toList := by
    rw [chunkingMode]
    split
    · decide
    · split <;> decide
  have hdims (config : RagConfig) :
      '|' ∉ "embedding_dimensions=".toList ++ (toString config.embeddingDimensions).toList := by
    rw [List.mem_append, not_or]
    exact ⟨by decide, notMem_toString (by decide) _⟩
  obtain ⟨hrest, hmodes⟩ := append_cons_inj_of_notMem (hmode c₁) (hmode c₂) hlist
  obtain ⟨hmodels, hdimensions⟩ := append_cons_inj_of_notMem (hdims c₁) (hdims c₂) hrest
  refine ⟨String.toList_inj.1 (List.append_cancel_left hmodels), ?_,
    String.toList_inj.1 (List.append_cancel_left hmodes)⟩
  exact toString_injective (List.append_cancel_left hdimensions)

/-- The mode tells whether chunking is parent-child. -/
theorem parentChild_of_chunkingMode {c₁ c₂ : RagConfig} (h : chunkingMode c₁ = chunkingMode c₂) :
    c₁.parentChildChunking = c₂.parentChildChunking := by
  have hmode (config : RagConfig) :
      config.parentChildChunking = decide (chunkingMode config = "parent_child") := by
    rw [chunkingMode]
    match config.parentChildChunking, config.documentAwareChunking with
    | true, _ => rfl
    | false, true => decide
    | false, false => decide
  rw [hmode c₁, hmode c₂, h]

/-! ### Chunking alike -/

/-- What is compared of a chunk: its content, its role and its links. -/
structure ChunkShape where
  content : String
  role : Value
  chunkIndex : ℕ
  prevChunk : Value
  nextChunk : Value
  parentChunk : Value
  parentPrev : Value
  parentNext : Value

/-- The shape of a chunk. -/
def DocumentChunk.shape (chunk : DocumentChunk) : ChunkShape where
  content := chunk.content
  role := Dict.get chunk.metadata "chunk_role"
  chunkIndex := chunk.chunkIndex
  prevChunk := Dict.get chunk.metadata "prev_chunk_index"
  nextChunk := Dict.get chunk.metadata "next_chunk_index"
  parentChunk := Dict.get chunk.metadata "parent_chunk_index"
  parentPrev := Dict.get chunk.metadata "parent_prev_chunk_index"
  parentNext := Dict.get chunk.metadata "parent_next_chunk_index"

/-- The shapes of the chunks of some documents, or the failure. -/
def chunkShapes (lib : TextLibrary) (settings : Settings) (config : RagConfig)
    (documents : List ParsedDocument) (request : ChunkRequest) :
    Except ChunkError (List ChunkShape) :=
  (chunk lib settings config documents request).map (List.map DocumentChunk.shape)

/-- Two configurations chunk all documents alike, whatever the libraries do, and embed alike. -/
def BehaveAlike (c₁ c₂ : RagConfig) : Prop :=
  (∀ lib settings documents request,
    chunkShapes lib settings c₁ documents request = chunkShapes lib settings c₂ documents request) ∧
    embeddingCall c₁ = embeddingCall c₂

/-- The child windows are cut alike, or there are none. -/
def WindowsAlike (c₁ c₂ : RagConfig) : Prop :=
  childSizeOf c₁ < 1 ∧ childSizeOf c₂ < 1 ∨
    childSizeOf c₁ = childSizeOf c₂ ∧ childOverlapOf c₁ = childOverlapOf c₂

/-- The configurations agree on what the key leaves out, and on the provider. -/
structure CutAlike (c₁ c₂ : RagConfig) : Prop where
  provider : c₁.embeddingProvider = c₂.embeddingProvider
  size : c₁.chunkSize = c₂.chunkSize
  overlap : c₁.chunkOverlap = c₂.chunkOverlap
  aware : c₁.documentAwareChunking = c₂.documentAwareChunking
  windows : c₁.parentChildChunking = true → WindowsAlike c₁ c₂

/-- Without a size there are no windows. -/
theorem childWindows_of_lt {childSize : ℤ} (h : childSize < 1) (lib : TextLibrary)
    (content : String) (childOverlap : ℤ) (model : String) :
    childWindows lib content childSize childOverlap model = .ok [] :=
  if_pos (.inl h)

/-- Windows cut alike give the same children. -/
theorem childChunks_of_windowsAlike {c₁ c₂ : RagConfig} (h : WindowsAlike c₁ c₂) (lib : TextLibrary)
    (request : ChunkRequest) (model : String) (index parentIndex : ℕ) (parents : List Piece) :
    childChunks lib request (childSizeOf c₁) (childOverlapOf c₁) model index parentIndex parents =
      childChunks lib request (childSizeOf c₂) (childOverlapOf c₂) model index parentIndex
        parents := by
  obtain ⟨h₁, h₂⟩ | ⟨hsize, hoverlap⟩ := h
  · induction parents generalizing index parentIndex with
    | nil => rfl
    | cons parent parents ih =>
      rw [childChunks, childChunks, childWindows_of_lt h₁, childWindows_of_lt h₂]
      simp only [bind, Except.bind, ih]
  · rw [hsize, hoverlap]

/-- The parents depend on the switches alone. -/
theorem parentsFrom_congr {c₁ c₂ : RagConfig}
    (hfamily : c₁.parentChildChunking = c₂.parentChildChunking)
    (haware : c₁.documentAwareChunking = c₂.documentAwareChunking) (request : ChunkRequest)
    (index : ℕ) (previous : String) (pieces : List Piece) :
    parentsFrom c₁ request index previous pieces = parentsFrom c₂ request index previous pieces := by
  induction pieces generalizing index previous with
  | nil => rfl
  | cons piece pieces ih =>
    rw [parentsFrom, parentsFrom, ih, parentMetadata, parentMetadata, hfamily, haware]

/-- Configurations that agree on what the chunker reads give the same chunks. -/
theorem chunk_congr {c₁ c₂ : RagConfig} (hcut : CutAlike c₁ c₂)
    (hmodel : c₁.embeddingModel = c₂.embeddingModel)
    (hfamily : c₁.parentChildChunking = c₂.parentChildChunking) (lib : TextLibrary)
    (settings : Settings) (documents : List ParsedDocument) (request : ChunkRequest) :
    chunk lib settings c₁ documents request = chunk lib settings c₂ documents request := by
  have hargs : splitterArgs c₁ = splitterArgs c₂ := by
    rw [splitterArgs, splitterArgs, hcut.size, hcut.overlap, hmodel, hcut.aware]
  have hparents (pieces : List Piece) :
      parentsFrom c₁ request 0 "" pieces = parentsFrom c₂ request 0 "" pieces :=
    parentsFrom_congr hfamily hcut.aware request 0 "" pieces
  by_cases hp : c₁.parentChildChunking = true
  · have hchildren := childChunks_of_windowsAlike (hcut.windows hp) lib request
    simp only [chunk, familyChunks, hargs, hmodel, hparents, hchildren, hfamily]
  · simp only [chunk, hargs, hmodel, hparents, ← hfamily, hp, Bool.false_eq_true, if_false]

/-! ### Telling configurations apart -/

/-- The contents of some chunks, or the failure. -/
def chunkContents (lib : TextLibrary) (settings : Settings) (config : RagConfig)
    (documents : List ParsedDocument) (request : ChunkRequest) : Except ChunkError (List String) :=
  (chunk lib settings config documents request).map (List.map DocumentChunk.content)

theorem chunkContents_eq_map_shapes (lib : TextLibrary) (settings : Settings) (config : RagConfig)
    (documents : List ParsedDocument) (request : ChunkRequest) :
    chunkContents lib settings config documents request =
      (chunkShapes lib settings config documents request).map (List.map ChunkShape.content) := by
  rw [chunkContents, chunkShapes]
  match chunk lib settings config documents request with
  | .ok chunks => simp [Except.map, DocumentChunk.shape]
  | .error _ => rfl

/-- The piece that stands for the arguments of a splitter. -/
def tell (args args' : SplitterArgs) : String := if args' = args then "a" else "b"

theorem tell_eq_self_iff {args args' : SplitterArgs} :
    tell args args = tell args args' ↔ args' = args := by
  rw [tell, if_pos rfl, tell]
  split
  · next h => exact ⟨fun _ ↦ h, fun _ ↦ rfl⟩
  · next h => exact ⟨fun hab ↦ absurd hab (by decide), fun heq ↦ absurd heq h⟩

theorem strip_tell (args args' : SplitterArgs) : strip (tell args args') ≠ "" := by
  rw [tell]
  split <;> decide

theorem tell_ne_empty (args args' : SplitterArgs) : tell args args' ≠ "" := by
  rw [tell]
  split <;> decide

/-- A library whose splitter tells of every text whether it was made with the arguments `args`. -/
def tellingLibrary (args : SplitterArgs) : TextLibrary where
  splitter args' := .ok fun _ ↦ [tell args args']
  estimateTokens _ _ := 0
  encodeText _ _ := none
  decodeTokens _ _ := none

/-- The only window that it makes of a text. -/
theorem childWindows_telling (args : SplitterArgs) {content : String} (hcontent : content ≠ "")
    {childSize : ℤ} (hsize : ¬childSize < 1) (childOverlap : ℤ) (model : String) :
    ∃ window : Window, window.content = tell args (childSplitterArgs childSize childOverlap model) ∧
      childWindows (tellingLibrary args) content childSize childOverlap model = .ok [window] := by
  simp only [childWindows, hsize, hcontent, or_self, if_false, tellingLibrary, TextLibrary.build,
    Except.mapError, Except.map, pieceWindows, strip_tell, List.isEmpty_cons, Bool.false_eq_true]
  exact ⟨_, rfl, rfl⟩

/-- The contents of the chunks of one parent are the parent's and its windows'. -/
theorem familyChunks_of_windows {lib : TextLibrary} {content model : String}
    {childSize childOverlap : ℤ} {windows : List Window}
    (hwindows : childWindows lib content childSize childOverlap model = .ok windows)
    (request : ChunkRequest) (tokenCount : ℕ) (metadata : Dict) :
    ∃ chunks, familyChunks lib request childSize childOverlap model
        [(content, tokenCount, metadata)] = .ok chunks ∧
      chunks.map DocumentChunk.content = content :: windows.map Window.content := by
  simp only [familyChunks, childChunks, hwindows, bind, Except.bind]
  refine ⟨_, rfl, ?_⟩
  have hcontent (count parents : ℕ) (chunks : List DocumentChunk) :
      (chunks.map (relinkChunk count parents)).map DocumentChunk.content =
        chunks.map DocumentChunk.content := by
    rw [List.map_map]
    rfl
  have hchild (index parentIndex parentTokens : ℕ) :
      (windows.mapIdx fun offset window ↦
        childChunk request (index + offset) parentIndex parentTokens metadata offset window).map
          DocumentChunk.content = windows.map Window.content :=
    List.ext_getElem (by simp) fun _ _ _ ↦ by simp [childChunk, ChunkRequest.chunk]
  rw [hcontent, List.map_append, List.append_nil, hchild]
  rfl

/-- What it makes of one document: a piece, and its window if there are any. -/
theorem chunkContents_telling (args : SplitterArgs) (config : RagConfig) (document : ParsedDocument)
    (request : ChunkRequest) :
    chunkContents (tellingLibrary args) .default config [document] request =
      .ok (tell args (splitterArgs config) ::
        if config.parentChildChunking && decide (¬childSizeOf config < 1) then
          [tell args (childSplitterArgs (childSizeOf config) (childOverlapOf config)
            config.embeddingModel)]
        else []) := by
  have hsplit : splitDocuments (tellingLibrary args) [document] (splitterArgs config) =
      .ok [(tell args (splitterArgs config), pieceMetadata document)] := rfl
  obtain ⟨metadata, hparents⟩ : ∃ metadata, linkParents (parentsFrom config request 0 ""
      [(tell args (splitterArgs config), 0, pieceMetadata document)]) =
        [(tell args (splitterArgs config), 0, metadata)] := ⟨_, rfl⟩
  have hmap : [(tell args (splitterArgs config), pieceMetadata document)].map
      (fun x ↦ (x.1, (tellingLibrary args).estimateTokens x.1 config.embeddingModel, x.2)) =
        [(tell args (splitterArgs config), 0, pieceMetadata document)] := rfl
  -- A family is at most a parent and a child, which is within the limit.
  have hfamilies {windows : List Window} (hlen : windows.length ≤ 1)
      (hwindows : childWindows (tellingLibrary args) (tell args (splitterArgs config))
        (childSizeOf config) (childOverlapOf config) config.embeddingModel = .ok windows)
      (hfamily : config.parentChildChunking = true) :
      chunkContents (tellingLibrary args) .default config [document] request =
        .ok (tell args (splitterArgs config) :: windows.map Window.content) := by
    obtain ⟨chunks, hchunks, hcontents⟩ := familyChunks_of_windows hwindows request 0 metadata
    have hlength := congrArg List.length hcontents
    have hlimit : ¬(chunks.length : ℤ) > Settings.default.ragMaxDocumentChunks := by
      show ¬(chunks.length : ℤ) > 5000
      simp only [List.length_map, List.length_cons] at hlength
      omega
    simp only [chunkContents, chunk, hsplit, bind, Except.bind, hmap, hparents, hfamily, if_true,
      hchunks, hlimit, if_false, Except.map, hcontents]
  by_cases hfamily : config.parentChildChunking = true
  · by_cases hsize : childSizeOf config < 1
    · have hnone : ([] : List Window).length ≤ 1 := Nat.zero_le 1
      rw [hfamilies hnone (childWindows_of_lt hsize _ _ _ _) hfamily, hfamily]
      simp [hsize]
    · obtain ⟨window, hcontent, hwindow⟩ := childWindows_telling args (tell_ne_empty args _) hsize
        (childOverlapOf config) config.embeddingModel
      rw [hfamilies le_rfl hwindow hfamily, hfamily, List.map_singleton, hcontent]
      simp [hsize]
  · have hlimit : ¬((plainChunks request [(tell args (splitterArgs config), 0, metadata)]).length : ℤ) >
        Settings.default.ragMaxDocumentChunks := by
      show ¬((1 : ℕ) : ℤ) > 5000
      omega
    simp only [chunkContents, chunk, hsplit, bind, Except.bind, hmap, hparents, hfamily, if_false,
      hlimit, Except.map, Bool.false_and, Bool.false_eq_true]
    rfl

/-- Configurations that chunk alike agree on what the chunker reads. -/
theorem cutAlike_of_behaveAlike {c₁ c₂ : RagConfig} (h : BehaveAlike c₁ c₂)
    (hfamily : c₁.parentChildChunking = c₂.parentChildChunking) : CutAlike c₁ c₂ := by
  have hcontents (args : SplitterArgs) :
      chunkContents (tellingLibrary args) .default c₁ [⟨"text", [], none⟩] ⟨"", "", "", none, none⟩ =
        chunkContents (tellingLibrary args) .default c₂ [⟨"text", [], none⟩]
          ⟨"", "", "", none, none⟩ := by
    rw [chunkContents_eq_map_shapes, chunkContents_eq_map_shapes, h.1]
  simp only [chunkContents_telling, Except.ok.injEq, List.cons.injEq] at hcontents
  -- The first piece tells whether the documents are split with the same arguments.
  have hargs : splitterArgs c₂ = splitterArgs c₁ := tell_eq_self_iff.1 (hcontents _).1
  have haware : (if c₂.documentAwareChunking then some documentAwareSeparators else none) =
      if c₁.documentAwareChunking then some documentAwareSeparators else none :=
    congrArg SplitterArgs.separators hargs
  refine ⟨congrArg EmbeddingCall.provider h.2, (congrArg SplitterArgs.chunkSize hargs).symm,
    (congrArg SplitterArgs.chunkOverlap hargs).symm, ?_, fun hp ↦ ?_⟩
  · match h₁ : c₁.documentAwareChunking, h₂ : c₂.documentAwareChunking with
    | true, true | false, false => rfl
    | true, false | false, true => simp [h₁, h₂] at haware
  · -- The second one tells the same of the parents.
    have hchild := (hcontents (childSplitterArgs (childSizeOf c₁) (childOverlapOf c₁)
      c₁.embeddingModel)).2
    rw [← hfamily, hp, Bool.true_and, Bool.true_and] at hchild
    by_cases h₁ : childSizeOf c₁ < 1 <;> by_cases h₂ : childSizeOf c₂ < 1
    · exact .inl ⟨h₁, h₂⟩
    · simp [h₁, h₂] at hchild
    · simp [h₁, h₂] at hchild
    · simp only [h₁, h₂, not_false_eq_true, decide_true, if_true, List.cons.injEq, and_true,
        tell_eq_self_iff] at hchild
      exact .inr ⟨(congrArg SplitterArgs.chunkSize hchild).symm,
        (congrArg SplitterArgs.chunkOverlap hchild).symm⟩

/-! ### The key -/

/-- Configurations with one key, the digest being free of collisions on them, behave alike exactly if
they agree on what it leaves out. -/
theorem behaveAlike_iff_cutAlike (sha256 : String → String) (c₁ c₂ : RagConfig)
    (hkey : indexVersionKey sha256 c₁ = indexVersionKey sha256 c₂)
    (hsha : slice 12 (sha256 (pipelineText c₁)) = slice 12 (sha256 (pipelineText c₂)) →
      pipelineText c₁ = pipelineText c₂) :
    BehaveAlike c₁ c₂ ↔ CutAlike c₁ c₂ := by
  have htext : pipelineText c₁ = pipelineText c₂ := by
    refine hsha (String.toList_inj.1 ?_)
    have hlist := congrArg String.toList hkey
    rw [indexVersionKey, indexVersionKey, String.toList_append, String.toList_append] at hlist
    exact List.append_cancel_left hlist
  constructor
  · intro h
    obtain ⟨-, -, hmode⟩ := fields_of_pipelineText htext (congrArg EmbeddingCall.provider h.2)
    exact cutAlike_of_behaveAlike h (parentChild_of_chunkingMode hmode)
  · intro hcut
    obtain ⟨hmodel, hdims, hmode⟩ := fields_of_pipelineText htext hcut.provider
    refine ⟨fun lib settings documents request ↦ ?_, ?_⟩
    · rw [chunkShapes, chunkShapes,
        chunk_congr hcut hmodel (parentChild_of_chunkingMode hmode) lib settings documents request]
    · rw [embeddingCall, embeddingCall, hcut.provider, hmodel, hdims]

/-! ### Two configurations with one key -/

/-- The default configuration with smaller pieces. -/
def fineConfig : RagConfig := { smallConfig with chunkSize := 3, chunkOverlap := 0 }

theorem behaveAlike_iff_cutAlike_fine :
    BehaveAlike smallConfig fineConfig ↔ CutAlike smallConfig fineConfig :=
  behaveAlike_iff_cutAlike digest smallConfig fineConfig rfl fun _ ↦ rfl

/-- The libraries on a text of two words of eight characters, with four characters to a token. -/
def wordLibrary : TextLibrary where
  splitter args := .ok fun text ↦
    if (text.length / 4 : ℕ) ≤ args.chunkSize then [text] else ["abcdefgh", "ijklmnop"]
  estimateTokens text _ := max 1 (text.length / 4)
  encodeText _ _ := none
  decodeTokens _ _ := none

/-- What a configuration makes of that text. -/
def wordContents (config : RagConfig) : Except ChunkError (List String) :=
  chunkContents wordLibrary .default config [⟨"abcdefgh ijklmnop", [], none⟩]
    ⟨"document", "user", "words.txt", none, none⟩

theorem wordContents_small : wordContents smallConfig = .ok ["abcdefgh ijklmnop"] := rfl

theorem wordContents_fine : wordContents fineConfig = .ok ["abcdefgh", "ijklmnop"] := rfl

/-- The two have the same key, and cut the text differently. -/
theorem keys_are_unsound :
    indexVersionKey digest smallConfig = indexVersionKey digest fineConfig ∧
      wordContents smallConfig ≠ wordContents fineConfig ∧
      ¬BehaveAlike smallConfig fineConfig := by
  have hne : wordContents smallConfig ≠ wordContents fineConfig := by
    rw [wordContents_small, wordContents_fine]
    exact fun h ↦ absurd (Except.ok.inj h) (by decide)
  refine ⟨rfl, hne, fun h ↦ hne ?_⟩
  rw [wordContents, wordContents, chunkContents_eq_map_shapes, chunkContents_eq_map_shapes, h.1]

end GenericApp
