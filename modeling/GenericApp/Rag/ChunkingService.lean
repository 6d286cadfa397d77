import GenericApp.Core.Settings
import GenericApp.Rag.PipelineVersions

/-!
# The chunker

`ChunkingService.chunk`: parsed documents are split into pieces, every piece becomes a parent, and with
parent-child chunking the parents are split once more into child windows.

The recursive splitter and the tokenizer come from libraries, so they are parameters, gathered in
`TextLibrary`. The rest (overlaps, windows, roles, links, metadata, the limit on chunks) is here as the
source has it.
-/

namespace GenericApp

open Py

/-! ### Libraries -/

/-- The arguments of `RecursiveCharacterTextSplitter`. Its `length_function` estimates tokens for a
model, so the model stands for it; without separators the splitter takes its own. -/
structure SplitterArgs where
  chunkSize : ℤ
  chunkOverlap : ℤ
  tokenizerModel : String
  separators : Option (List String)
  deriving DecidableEq, Repr

/-- `RecursiveCharacterTextSplitter`, whose constructor may refuse its arguments, and the functions
`estimate_tokens`, `encode_text` and `decode_tokens`. -/
structure TextLibrary where
  splitter : SplitterArgs → Except String (String → List String)
  estimateTokens : String → String → ℕ
  encodeText : String → String → Option (List ℕ)
  decodeTokens : List ℕ → String → Option String

/-- How `chunk` fails: in the splitter, or on the limit. -/
inductive ChunkError
  | library (message : String)
  | http (statusCode : ℕ) (detail : String)
  deriving DecidableEq, Repr

/-- A splitter, or the failure of its constructor. -/
def TextLibrary.build (lib : TextLibrary) (args : SplitterArgs) :
    Except ChunkError (String → List String) :=
  (lib.splitter args).mapError .library

/-! ### Pieces -/

/-- `ParsedDocument`. -/
structure ParsedDocument where
  content : String
  metadata : Dict
  pageNumber : Option ℤ

/-- `_DOCUMENT_AWARE_SEPARATORS`. -/
def documentAwareSeparators : List String :=
  ["\n## ", "\n### ", "\n#### ", "\n\n", "\n- ", "\n* ", "\n1. ", "\n", ". ", " ", ""]

/-- The metadata of the pieces of a document. -/
def pieceMetadata (doc : ParsedDocument) : Dict :=
  let sectionHeading := Dict.get doc.metadata "section_heading"
  let sectionPath := (Dict.get doc.metadata "section_path").orElse sectionHeading
  let metadata := match doc.pageNumber with
    | some page => Dict.setDefault doc.metadata "page_number" (.int page)
    | none => doc.metadata
  let metadata := if sectionPath.truthy then Dict.setDefault metadata "section_path" sectionPath
    else metadata
  if sectionHeading.truthy then Dict.setDefault metadata "section_heading" sectionHeading
  else metadata

/-- `split_documents`. -/
def splitDocuments (lib : TextLibrary) (documents : List ParsedDocument) (args : SplitterArgs) :
    Except ChunkError (List (String × Dict)) :=
  (lib.build args).map fun splitText ↦
    documents.flatMap fun doc ↦ (splitText doc.content).map fun piece ↦ (piece, pieceMetadata doc)

/-- The arguments that `chunk` gives the splitter of the documents. -/
def splitterArgs (config : RagConfig) : SplitterArgs where
  chunkSize := config.chunkSize
  chunkOverlap := config.chunkOverlap
  tokenizerModel := config.embeddingModel
  separators := if config.documentAwareChunking then some documentAwareSeparators else none

/-! ### Overlaps -/

/-- The loop of `prefix_suffix_overlap`. A round either moves `index` on, or shortens `length`, which
is never beyond `index`; so there are at most twice as many rounds as characters. -/
def lpsLoop (probe : List Char) : ℕ → List ℕ → ℕ → ℕ → List ℕ
  | 0, lps, _, _ => lps
  | fuel + 1, lps, length, index =>
    if index < probe.length then
      if probe[index]? = probe[length]? then
        lpsLoop probe fuel (lps.set index (length + 1)) (length + 1) (index + 1)
      else if length ≠ 0 then lpsLoop probe fuel lps (lps.getD (length - 1) 0) index
      else lpsLoop probe fuel (lps.set index 0) length (index + 1)
    else lps

/-- `prefix_suffix_overlap`. -/
def prefixSuffixOverlap (previous current : String) : ℕ :=
  if previous = "" ∨ current = "" then 0
  else
    let maxLen := min previous.length current.length
    let probe := current.toList.take maxLen ++
      Char.ofNat 0 :: previous.toList.drop (previous.length - maxLen)
    let lps := lpsLoop probe (2 * probe.length) (List.replicate probe.length 0) 0 1
    min (lps.getLastD 0) maxLen

/-! ### Windows -/

/-- A child window. -/
structure Window where
  content : String
  tokenCount : ℕ
  tokenStart : ℕ
  tokenEnd : ℕ
  charStart : ℕ
  charEnd : ℕ
  deriving DecidableEq, Repr

/-- The windows over the tokens, from the given starts on. A blank piece is skipped before the loop
asks whether it has come to the last token. -/
def tokenWindows (lib : TextLibrary) (model : String) (tokenIds : List ℕ) (childSize : ℕ) :
    List ℕ → List Window
  | [] => []
  | start :: starts =>
    let pieceIds := (tokenIds.drop start).take childSize
    let piece := (lib.decodeTokens pieceIds model).getD ""
    if pieceIds.isEmpty || strip piece = "" then tokenWindows lib model tokenIds childSize starts
    else
      let charStart := ((lib.decodeTokens (tokenIds.take start) model).getD "").length
      ⟨piece, pieceIds.length, start, start + pieceIds.length, charStart, charStart + piece.length⟩ ::
        if start + childSize ≥ tokenIds.length then []
        else tokenWindows lib model tokenIds childSize starts

/-- The starts of `range(0, count, step)`. -/
def windowStarts (count step : ℕ) : List ℕ :=
  (List.range ((count + step - 1) / step)).map (· * step)

/-- The windows of the pieces that the splitter makes of a parent. -/
def pieceWindows (lib : TextLibrary) (model content : String) : ℕ → List String → List Window
  | _, [] => []
  | searchFrom, piece :: pieces =>
    if strip piece = "" then pieceWindows lib model content searchFrom pieces
    else
      let charStart := (find content piece searchFrom).getD searchFrom
      let charEnd := charStart + piece.length
      let tokenStart :=
        if charStart = 0 then 0 else lib.estimateTokens (slice charStart content) model - 1
      let tokenCount := lib.estimateTokens piece model
      ⟨piece, tokenCount, tokenStart, tokenStart + tokenCount, charStart, charEnd⟩ ::
        pieceWindows lib model content charEnd pieces

/-- The arguments of the splitter of the parents, for a model without tokenizer. -/
def childSplitterArgs (childSize childOverlap : ℤ) (model : String) : SplitterArgs :=
  ⟨childSize, childOverlap, model, none⟩

/-- `_child_windows`. -/
def childWindows (lib : TextLibrary) (content : String) (childSize childOverlap : ℤ)
    (model : String) : Except ChunkError (List Window) :=
  if childSize < 1 ∨ content = "" then .ok []
  else
    let found : Except ChunkError (List Window) := match lib.encodeText content model with
      | some tokenIds =>
        .ok (tokenWindows lib model tokenIds childSize.toNat
          (windowStarts tokenIds.length (max 1 (childSize - childOverlap)).toNat))
      | none => (lib.build (childSplitterArgs childSize childOverlap model)).map fun splitText ↦
          pieceWindows lib model content 0 (splitText content)
    found.map fun windows ↦
      if windows.isEmpty then
        let tokenCount := lib.estimateTokens content model
        [⟨content, tokenCount, 0, tokenCount, 0, content.length⟩]
      else windows

/-! ### Chunks -/

/-- The arguments of `chunk` besides the documents. -/
structure ChunkRequest where
  documentId : String
  userId : String
  filename : String
  projectId : Option String
  organizationId : Option String

/-- `DocumentChunk`, as the chunker fills it. -/
structure DocumentChunk where
  documentId : String
  userId : String
  chunkIndex : ℕ
  content : String
  tokenCount : ℕ
  organizationId : Option String
  projectId : Option String
  metadata : Dict

/-- A piece with its token count and its metadata. -/
abbrev Piece := String × ℕ × Dict

/-- The links of a row of `count` chunks. -/
def prevIndex (index : ℕ) : Value := if index > 0 then .int (index - 1) else .none

@[inherit_doc prevIndex]
def nextIndex (index count : ℕ) : Value := if index + 1 < count then .int (index + 1) else .none

/-- The metadata of a parent. -/
def parentMetadata (config : RagConfig) (request : ChunkRequest) (index overlapChars : ℕ)
    (content : String) (tokenCount : ℕ) (metadata : Dict) : Dict :=
  let sectionHeading := Dict.get metadata "section_heading"
  Dict.update metadata [
    ("document_id", .str request.documentId),
    ("user_id", .str request.userId),
    ("organization_id", .ofStr request.organizationId),
    ("project_id", .ofStr request.projectId),
    ("filename", .str request.filename),
    ("chunk_index", .int index),
    ("chunk_char_count", .int content.length),
    ("chunk_token_count", .int tokenCount),
    ("format", Dict.getD metadata "format" (.str "unknown")),
    ("section_heading", sectionHeading),
    ("section_path", (Dict.get metadata "section_path").orElse sectionHeading),
    ("overlap_char_count", .int overlapChars),
    ("page_number", Dict.get metadata "page_number"),
    ("source_type", .str "upload"),
    ("chunk_role", .str (if config.parentChildChunking then "parent" else "chunk")),
    ("document_aware_chunking", .bool config.documentAwareChunking)]

/-- The parents of the pieces, before they are linked. -/
def parentsFrom (config : RagConfig) (request : ChunkRequest) : ℕ → String → List Piece → List Piece
  | _, _, [] => []
  | index, previous, (content, tokenCount, metadata) :: pieces =>
    (content, tokenCount, parentMetadata config request index (prefixSuffixOverlap previous content)
      content tokenCount metadata) :: parentsFrom config request (index + 1) content pieces

/-- The parents, linked. -/
def linkParents (parents : List Piece) : List Piece :=
  parents.mapIdx fun index parent ↦ (parent.1, parent.2.1,
    Dict.update parent.2.2 [
      ("prev_chunk_index", prevIndex index),
      ("next_chunk_index", nextIndex index parents.length),
      ("chunk_count", .int parents.length)])

/-- A chunk of the document. -/
def ChunkRequest.chunk (request : ChunkRequest) (index : ℕ) (content : String) (tokenCount : ℕ)
    (metadata : Dict) : DocumentChunk :=
  ⟨request.documentId, request.userId, index, content, tokenCount, request.organizationId,
    request.projectId, metadata⟩

/-- The chunks without parent-child chunking. -/
def plainChunks (request : ChunkRequest) (parents : List Piece) : List DocumentChunk :=
  parents.mapIdx fun index (content, tokenCount, metadata) ↦
    request.chunk index content tokenCount
      (Dict.update
        [("source_metadata", .dict
          (Dict.without metadata ["document_id", "user_id", "organization_id", "project_id"]))]
        metadata)

/-- The parents as chunks. -/
def parentChunks (request : ChunkRequest) (parents : List Piece) : List DocumentChunk :=
  parents.mapIdx fun index (content, tokenCount, metadata) ↦
    request.chunk index content tokenCount
      (Dict.update metadata [
        ("chunk_index", .int index),
        ("chunk_role", .str "parent"),
        ("chunk_token_count", .int tokenCount),
        ("chunk_char_count", .int content.length)])

/-- A child. -/
def childChunk (request : ChunkRequest) (index parentIndex parentTokens : ℕ) (parentMeta : Dict)
    (offset : ℕ) (window : Window) : DocumentChunk :=
  request.chunk index window.content window.tokenCount
    (Dict.update
      (Dict.without parentMeta ["chunk_role", "chunk_index", "chunk_token_count", "chunk_char_count",
        "overlap_char_count"]) [
      ("chunk_index", .int index),
      ("chunk_role", .str "child"),
      ("parent_chunk_index", .int parentIndex),
      ("parent_token_count", .int parentTokens),
      ("child_offset", .int offset),
      ("token_start", .int window.tokenStart),
      ("token_end", .int window.tokenEnd),
      ("char_start", .int window.charStart),
      ("char_end", .int window.charEnd),
      ("chunk_token_count", .int window.tokenCount),
      ("chunk_char_count", .int window.content.length),
      ("section_path", Dict.get parentMeta "section_path"),
      ("page_number", Dict.get parentMeta "page_number")])

/-- The children, numbered from `index` on, of the parents from `parentIndex` on. -/
def childChunks (lib : TextLibrary) (request : ChunkRequest) (childSize childOverlap : ℤ)
    (model : String) : ℕ → ℕ → List Piece → Except ChunkError (List DocumentChunk)
  | _, _, [] => .ok []
  | index, parentIndex, (content, tokenCount, metadata) :: parents => do
    let windows ← childWindows lib content childSize childOverlap model
    let rest ← childChunks lib request childSize childOverlap model (index + windows.length)
      (parentIndex + 1) parents
    .ok ((windows.mapIdx fun offset window ↦
      childChunk request (index + offset) parentIndex tokenCount metadata offset window) ++ rest)

/-- The links to the neighbours of the parent. -/
def parentPrevIndex : Value → Value
  | .int i => if i > 0 then .int (i - 1) else .none
  | _ => .none

@[inherit_doc parentPrevIndex]
def parentNextIndex (parents : ℕ) : Value → Value
  | .int i => if i + 1 < parents then .int (i + 1) else .none
  | _ => .none

/-- Whether the metadata are those of a child. -/
def isChild (metadata : Dict) : Bool :=
  match Dict.get metadata "chunk_role" with
  | .str role => role = "child"
  | _ => false

/-- What the last loop does to a chunk, of `count` chunks with `parents` parents. -/
def relinkChunk (count parents : ℕ) (chunk : DocumentChunk) : DocumentChunk :=
  let metadata := Dict.put chunk.metadata "chunk_count" (.int count)
  { chunk with metadata :=
      if isChild metadata then
        let parentIdx := Dict.get metadata "parent_chunk_index"
        Dict.update metadata [
          ("prev_chunk_index", prevIndex chunk.chunkIndex),
          ("next_chunk_index", nextIndex chunk.chunkIndex count),
          ("parent_prev_chunk_index", parentPrevIndex parentIdx),
          ("parent_next_chunk_index", parentNextIndex parents parentIdx)]
      else metadata }

/-- The chunks with parent-child chunking: the parents, then the children. -/
def familyChunks (lib : TextLibrary) (request : ChunkRequest) (childSize childOverlap : ℤ)
    (model : String) (parents : List Piece) : Except ChunkError (List DocumentChunk) := do
  let children ← childChunks lib request childSize childOverlap model parents.length 0 parents
  let chunks := parentChunks request parents ++ children
  .ok (chunks.map (relinkChunk chunks.length parents.length))

/-- The size that a child window gets: no size at all is the default one. -/
def childSizeOf (config : RagConfig) : ℤ := orInt config.parentChildChildSize 200

@[inherit_doc childSizeOf]
def childOverlapOf (config : RagConfig) : ℤ := orInt config.parentChildChildOverlap 40

/-- `ChunkingService.chunk`. -/
def chunk (lib : TextLibrary) (settings : Settings) (config : RagConfig)
    (documents : List ParsedDocument) (request : ChunkRequest) :
    Except ChunkError (List DocumentChunk) := do
  let model := config.embeddingModel
  let split ← splitDocuments lib documents (splitterArgs config)
  let pieces := split.map fun (content, metadata) ↦
    (content, lib.estimateTokens content model, metadata)
  let parents := linkParents (parentsFrom config request 0 "" pieces)
  let chunks ←
    if config.parentChildChunking then
      familyChunks lib request (childSizeOf config) (childOverlapOf config) model parents
    else .ok (plainChunks request parents)
  if chunks.length > settings.ragMaxDocumentChunks then
    .error (.http 413 "Document produces more chunks than the configured limit.")
  else .ok chunks

end GenericApp
