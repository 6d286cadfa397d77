import GenericApp.Foundation.Python

/-!
# Version stamps of the pipeline

The fields under which documents and chunks record how they were parsed, chunked and embedded, and the
short key that stands for them. The digest is SHA-256 in hexadecimal, of which nothing is used but that
it is a function; it is a parameter.
-/

namespace GenericApp

open Py

/-- The fields of `RagConfig` that the version stamps, the chunker and the candidate plan read. -/
structure RagConfig where
  enabled : Bool
  embeddingProvider : String
  embeddingModel : String
  embeddingDimensions : ℤ
  chunkSize : ℤ
  chunkOverlap : ℤ
  topK : ℤ
  retrievalStrategy : String := "hybrid_rrf"
  vectorCandidateCount : ℤ := 0
  lexicalCandidateCount : ℤ := 0
  rrfK : ℤ := 60
  rerankEnabled : Bool := false
  rerankCandidateMultiplier : ℤ := 3
  documentAwareChunking : Bool := false
  parentChildChunking : Bool := false
  parentChildChildSize : ℤ := 200
  parentChildChildOverlap : ℤ := 40
  deriving DecidableEq, Repr

/-- What `EmbeddingService.embed_texts` asks the provider for. -/
structure EmbeddingCall where
  provider : String
  model : String
  dimensions : ℤ
  deriving DecidableEq, Repr

/-- The embedding call of a configuration. -/
def embeddingCall (config : RagConfig) : EmbeddingCall :=
  ⟨config.embeddingProvider, config.embeddingModel, config.embeddingDimensions⟩

/-- `PARSER_VERSION` -/
def parserVersion : String := "parser-v1"

/-- `CHUNKER_VERSION` -/
def chunkerVersion : String := "chunker-v3"

/-- `EMBEDDING_SCHEMA_VERSION` -/
def embeddingSchemaVersion : String := "embedding-schema-v1"

/-- The `chunking_mode` of a configuration. -/
def chunkingMode (config : RagConfig) : String :=
  if config.parentChildChunking then "parent_child"
  else if config.documentAwareChunking then "document_aware"
  else "basic"

/-- What `pipeline_version_metadata` returns. -/
structure PipelineMetadata where
  parserVersion : String
  chunkerVersion : String
  embeddingSchemaVersion : String
  embeddingProvider : String
  embeddingModel : String
  embeddingDimensions : ℤ
  chunkingMode : String
  indexVersion : String
  deriving DecidableEq, Repr

/-- The text under the key of a configuration, in the order of `PIPELINE_VERSION_KEYS`. -/
def pipelineText (config : RagConfig) : String :=
  "|".intercalate [
    "parser_version=" ++ parserVersion,
    "chunker_version=" ++ chunkerVersion,
    "embedding_schema_version=" ++ embeddingSchemaVersion,
    "embedding_provider=" ++ config.embeddingProvider,
    "embedding_model=" ++ config.embeddingModel,
    "embedding_dimensions=" ++ toString config.embeddingDimensions,
    "chunking_mode=" ++ chunkingMode config]

/-- `index_version_key` of the fields of a configuration. -/
def indexVersionKey (sha256 : String → String) (config : RagConfig) : String :=
  "idx-" ++ slice 12 (sha256 (pipelineText config))

/-- `pipeline_version_metadata`. -/
def pipelineVersionMetadata (sha256 : String → String) (config : RagConfig) : PipelineMetadata where
  parserVersion := parserVersion
  chunkerVersion := chunkerVersion
  embeddingSchemaVersion := embeddingSchemaVersion
  embeddingProvider := config.embeddingProvider
  embeddingModel := config.embeddingModel
  embeddingDimensions := config.embeddingDimensions
  chunkingMode := chunkingMode config
  indexVersion := indexVersionKey sha256 config

end GenericApp
