import GenericApp.Ai.PromptCatalog
import GenericApp.Foundation.Coroutine

/-!
# AI runs

`run_prompt` and `run_rag_answer` resolve a prompt, write the row of a run that is `running`, let the provider of the
prompt generate, and write what has come of it. The row is in the transaction of the session that the service has been
given, and this session goes on after the call.

`AiSession.step` is such a session: one call after the other, and between them commits and rollbacks of whoever else
uses it. A flush or a commit that raises ends the transaction, and what it has not committed is lost.
-/

namespace GenericApp

open Py

/-! ### Exceptions -/

/-- `ProviderRetryMetadata` -/
structure ProviderRetryMetadata where
  attempts : ℤ
  retries : ℤ
  lastStatusCode : Option ℕ
deriving DecidableEq

/-- What is raised, as far as the service tells it apart. -/
inductive RunException
  /-- `asyncio.CancelledError` -/
  | cancelled
  /-- `TimeoutError` -/
  | timeout (message : String) (metadata : Option ProviderRetryMetadata)
  | http (statusCode : ℕ) (detail : String) (metadata : Option ProviderRetryMetadata)
  /-- Any other `Exception`. -/
  | other (message : String) (metadata : Option ProviderRetryMetadata)
  /-- What is no `Exception` either: `KeyboardInterrupt`, `SystemExit`. -/
  | exit
deriving DecidableEq

namespace RunException

/-- `isinstance(exc, Exception)` -/
def isException : RunException → Bool
  | cancelled | exit => false
  | timeout _ _ | http _ _ _ | other _ _ => true

/-- `str(error)` -/
def text : RunException → String
  | cancelled | exit => ""
  | timeout message _ | other message _ => message
  | http statusCode detail _ => toString statusCode ++ ": " ++ detail

/-- `getattr(error, "metadata", None)` -/
def metadata : RunException → Option ProviderRetryMetadata
  | cancelled | exit => none
  | timeout _ metadata | http _ _ metadata | other _ metadata => metadata

end RunException

/-- `HTTPException(status_code=.., detail=..)` -/
def httpException (statusCode : ℕ) (detail : String) : RunException := .http statusCode detail none

/-! ### Providers -/

/-- The providers of `AiProviderRegistry`. -/
inductive AiProvider
  | local
  | openai
  | anthropic
deriving DecidableEq

def AiProvider.key : AiProvider → String
  | «local» => "local"
  | openai => "openai"
  | anthropic => "anthropic"

/-- `AiProviderRegistry.get`. `defaultProvider` is `AI_DEFAULT_PROVIDER`. -/
@[irreducible]
def getProvider (defaultProvider key : String) : Except RunException AiProvider :=
  let providerKey := lower (strip (orStr key defaultProvider))
  match [AiProvider.local, .openai, .anthropic].find? (·.key = providerKey) with
  | some provider => .ok provider
  | none => .error (httpException 404 ("Unknown AI provider: " ++ providerKey))

/-- `ProviderGenerateRequest` -/
structure ProviderGenerateRequest where
  model : String
  systemPrompt : String
  userPrompt : String
  responseFormat : String
  temperature : ℚ
  idempotencyKey : String

/-- `ProviderGenerateResult` -/
structure ProviderGenerateResult where
  outputText : String
  outputJson : Option Dict
  inputTokens : ℕ
  outputTokens : ℕ
  attempts : ℤ := 1
  retries : ℤ := 0
  lastStatusCode : Option ℕ := none

def ProviderGenerateResult.totalTokens (r : ProviderGenerateResult) : ℕ := r.inputTokens + r.outputTokens

/-! ### Rows -/

inductive AiRunStatus
  | running
  | completed
  | failed
deriving DecidableEq

/-- `AiRun` -/
structure AiRun where
  id : Uuid
  userId : String
  promptTemplateId : Option Uuid
  promptVersionId : Option Uuid
  evaluationDatasetId : Option String := none
  evaluationCaseId : Option String := none
  providerKey : String
  modelName : String
  status : AiRunStatus
  responseFormat : String
  variablesJson : Dict
  retrievalQuery : Option String
  retrievedChunkIds : List String
  retrievalDegraded : Bool
  memoryDegraded : Bool
  degradationReason : Option String
  injectionChunksFiltered : ℕ
  inputMessages : List (String × String)
  reviewStatus : String
  outputText : Option String := none
  outputJson : Option Dict := none
  latencyMs : Option ℕ := none
  inputTokens : ℕ := 0
  outputTokens : ℕ := 0
  totalTokens : ℕ := 0
  estimatedCostMicros : ℕ := 0
  providerAttempts : ℤ := 0
  providerRetryCount : ℤ := 0
  providerLastStatusCode : Option ℕ := none
  providerLastError : Option String := none
  providerDeadlineAt : Option DateTime := none
  errorMessage : Option String := none
  completedAt : Option DateTime := none

/-! ### What is awaited -/

/-- What `PromptContextService.build` returns, as far as it is used. -/
structure PromptContextOutcome where
  systemContext : Option String
  documentContext : String
  retrievedChunkIds : List String
  retrievalDegraded : Bool
  memoryDegraded : Bool
  degradationReason : Option String
  injectionChunksFiltered : ℕ

/-- What `retrieve_chunks` returns for each chunk, as far as it is used. -/
structure ChunkMatch where
  chunkId : String
  documentTitle : String
  chunkIndex : ℕ
  content : String

/-- `RagAnswerPromptSpec` -/
structure RagAnswerPromptSpec where
  templateId : Option Uuid
  versionId : Option Uuid
  providerKey : String
  modelName : String
  systemPrompt : String
  responseFormat : String
  temperature : ℚ
  inputCostPerMillion : ℕ
  outputCostPerMillion : ℕ

/-- What is awaited, and what is done without waiting: `assign`, the clocks, `compute` and the rollback with which a
failed flush or commit ends. `compute` is what the `try` computes from the result. -/
inductive RunOp
  | resolvePromptVersion (templateKey versionId : Option String)
  | resolveRagAnswerPrompt
  | buildContext (query : String) (documentIds : List String) (topK : ℕ)
  | retrieveChunks (query : String) (documentIds : List String) (topK : ℕ)
  | createRun (run : AiRun)
  | flush
  | generate (provider : AiProvider) (request : ProviderGenerateRequest)
  | createReview (runId : Uuid)
  | commit
  | refresh (runId : Uuid)
  | assign (runId : Uuid) (update : AiRun → AiRun)
  | now
  | elapsedMs
  | compute
  | rollback

@[reducible]
def RunAns : RunOp → Type
  | .resolvePromptVersion _ _ => ResolvedPrompt
  | .resolveRagAnswerPrompt => RagAnswerPromptSpec
  | .buildContext _ _ _ => PromptContextOutcome
  | .retrieveChunks _ _ _ => List ChunkMatch
  | .generate _ _ => ProviderGenerateResult
  | .refresh _ => AiRun
  | .now => DateTime
  | .elapsedMs => ℕ
  | .createRun _ | .flush | .createReview _ | .commit | .assign _ _ | .compute | .rollback => Unit

/-- The rows as the session holds them and as they are committed. -/
structure AiRunDb where
  session : List AiRun := []
  committed : List AiRun := []

def runEffect : RunOp → AiRunDb → AiRunDb
  | .createRun run, s => { s with session := s.session ++ [run] }
  | .assign runId update, s =>
    { s with session := s.session.map fun run ↦ if run.id = runId then update run else run }
  | .commit, s => { s with committed := s.session }
  | .rollback, s => { s with session := s.committed }
  | .resolvePromptVersion _ _, s | .resolveRagAnswerPrompt, s | .buildContext _ _ _, s
  | .retrieveChunks _ _ _, s | .flush, s | .generate _ _, s | .createReview _, s | .refresh _, s | .now, s
  | .elapsedMs, s | .compute, s => s

def runRaisable : RunOp → RunException → Bool
  | .assign _ _, _ | .now, _ | .elapsedMs, _ | .rollback, _ => false
  | .compute, x => x.isException
  | .resolvePromptVersion _ _, _ | .resolveRagAnswerPrompt, _ | .buildContext _ _ _, _
  | .retrieveChunks _ _ _, _ | .createRun _, _ | .flush, _ | .generate _ _, _ | .createReview _, _
  | .commit, _ | .refresh _, _ => true

/-- The service yields nothing. -/
def runWorld : World RunOp Empty RunException AiRunDb where
  effect := runEffect
  raisable op x := runRaisable op x = true
  spoken y := y.elim

instance (op : RunOp) (x : RunException) : Decidable (runWorld.raisable op x) :=
  inferInstanceAs (Decidable (runRaisable op x = true))

abbrev RunCall (α : Type) := Coroutine RunOp RunAns Empty RunException α

def callRun (op : RunOp) : RunCall (RunAns op) := Coroutine.await op

/-- A flush or a commit, or what implies one. -/
def transact (op : RunOp) : RunCall (RunAns op) :=
  (callRun op).tryCatch fun x ↦ do
    callRun .rollback
    .raised x

/-! ### The service -/

/-- The settings that are read, and `_render_template`. -/
structure RunPorts where
  defaultProvider : String
  ragEnabled : Bool
  maxPromptBytes : ℕ
  maxContextBytes : ℕ
  requestTimeoutSeconds : ℤ
  renderTemplate : String → Dict → String

section Service

variable (P : RunPorts)

/-- `validate_prompt_budget` -/
@[irreducible]
def validatePromptBudget (systemPrompt userPrompt : String) : RunCall Unit :=
  if P.maxPromptBytes < systemPrompt.utf8ByteSize + userPrompt.utf8ByteSize then
    .raised (httpException 413 "The generated prompt exceeds the configured size limit.")
  else pure ()

/-- `validate_context_budget` -/
@[irreducible]
def validateContextBudget (context : String) : RunCall Unit :=
  if P.maxContextBytes < context.utf8ByteSize then
    .raised (httpException 413 "Retrieved context exceeds the configured size limit.")
  else pure ()

/-- `_merge_system_context` -/
def mergeSystemContext (blocks : List (Option String)) : Option String :=
  given (some ("\n\n".intercalate ((blocks.reduceOption.map strip).filter (· ≠ ""))))

/-- `_record_provider_failure` -/
def recordProviderFailure (error : RunException) (run : AiRun) : AiRun :=
  let run := match error.metadata with
    | some metadata =>
      { run with
        providerAttempts := max 1 metadata.attempts
        providerRetryCount := max 0 metadata.retries
        providerLastStatusCode := metadata.lastStatusCode }
    | none => if run.providerAttempts = 0 then { run with providerAttempts := 1 } else run
  { run with providerLastError := some (slice 500 error.text) }

/-- What a handler sets on the run. -/
def failedUpdate (error : RunException) (message : String) (now : DateTime) (run : AiRun) : AiRun :=
  { recordProviderFailure error run with
    status := .failed
    errorMessage := some message
    completedAt := some now }

/-- The body of each handler of the `try`. -/
def failRun (runId : Uuid) (error : RunException) (message : String) (raised : RunException) : RunCall Unit := do
  let now ← callRun .now
  callRun (.assign runId (failedUpdate error message now))
  transact .commit
  .raised raised

/-- The handlers of the `try` of `_finalize_run_generation`. -/
def generationHandlers (runId : Uuid) : RunException → RunCall Unit
  | .timeout message metadata =>
    failRun runId (.timeout message metadata) "AI provider execution timed out"
      (httpException 504 "AI provider execution timed out")
  | .http statusCode detail metadata =>
    failRun runId (.http statusCode detail metadata) detail (.http statusCode detail metadata)
  | .other message metadata =>
    failRun runId (.other message metadata) message (httpException 502 "AI provider execution failed")
  | .cancelled => .raised .cancelled
  | .exit => .raised .exit

/-- What is needed of the version of a prompt. -/
structure ExecutionVersion where
  modelName : String
  responseFormat : String
  temperature : ℚ
  inputCostPerMillion : ℕ
  outputCostPerMillion : ℕ

/-- What is set from the result before anything is computed from it. -/
def completedAiRun (result : ProviderGenerateResult) (latencyMs : ℕ) (run : AiRun) : AiRun :=
  { run with
    status := .completed
    outputText := some result.outputText
    outputJson := result.outputJson
    latencyMs := some latencyMs
    inputTokens := result.inputTokens
    outputTokens := result.outputTokens
    totalTokens := result.totalTokens
    providerAttempts := result.attempts
    providerRetryCount := result.retries
    providerLastStatusCode := result.lastStatusCode }

/-- The `try` of `_finalize_run_generation`. -/
def generateRun (run : AiRun) (provider : AiProvider) (version : ExecutionVersion)
    (systemPrompt userPrompt : String) : RunCall Unit := do
  let result ← callRun (.generate provider
    { model := version.modelName
      systemPrompt := systemPrompt
      userPrompt := userPrompt
      responseFormat := version.responseFormat
      temperature := version.temperature
      idempotencyKey := "ai-run:" ++ toString run.id })
  let latencyMs ← callRun .elapsedMs
  callRun (.assign run.id (completedAiRun result latencyMs))
  callRun .compute
  let now ← callRun .now
  callRun (.assign run.id fun run ↦
    { run with
      estimatedCostMicros := result.inputTokens * version.inputCostPerMillion +
        result.outputTokens * version.outputCostPerMillion
      completedAt := some now })

/-- `_finalize_run_generation` -/
def finalizeRunGeneration (run : AiRun) (version : ExecutionVersion) (systemPrompt userPrompt : String)
    (reviewRequired : Bool) : RunCall AiRun :=
  match getProvider P.defaultProvider run.providerKey with
  | .error x => .raised x
  | .ok provider => do
    let now ← callRun .now
    callRun (.assign run.id fun run ↦
      { run with
        providerAttempts := 0
        providerRetryCount := 0
        providerLastStatusCode := none
        providerLastError := none
        providerDeadlineAt := some (now + timedelta P.requestTimeoutSeconds) })
    (generateRun run provider version systemPrompt userPrompt).tryCatch (generationHandlers run.id)
    (transact (.createReview run.id)).when reviewRequired
    transact .commit
    callRun (.refresh run.id)

/-- The arguments of `run_prompt`. -/
structure RunPromptRequest where
  userId : String
  promptTemplateKey : Option String := none
  promptVersionId : Option String := none
  variablesJson : Dict := []
  retrievalQuery : Option String := none
  documentIds : List String := []
  topK : ℕ
  reviewRequired : Bool := false
  evaluationDatasetId : Option String := none
  evaluationCaseId : Option String := none
  additionalSystemContext : Option String := none
  retrievedChunkIds : List String := []
  retrievalDegraded : Bool := false
  memoryDegraded : Bool := false
  degradationReason : Option String := none
  injectionChunksFiltered : ℕ := 0

/-- The request with what has been retrieved for it. -/
def addContext (request : RunPromptRequest) : RunCall RunPromptRequest :=
  match given request.retrievalQuery with
  | none => pure request
  | some query =>
    if P.ragEnabled then do
      let context ← callRun (.buildContext query request.documentIds request.topK)
      validateContextBudget P context.documentContext
      pure
        { request with
          variablesJson := request.variablesJson.put "retrieval_context" (.str context.documentContext)
          retrievedChunkIds := context.retrievedChunkIds
          retrievalDegraded := context.retrievalDegraded
          memoryDegraded := context.memoryDegraded
          degradationReason := context.degradationReason
          injectionChunksFiltered := context.injectionChunksFiltered
          additionalSystemContext :=
            mergeSystemContext [request.additionalSystemContext, context.systemContext] }
    else do
      let matched ← callRun (.retrieveChunks query request.documentIds request.topK)
      let context := "\n\n".intercalate (matched.map fun item ↦
        "[" ++ item.documentTitle ++ " #" ++ toString item.chunkIndex ++ "]\n" ++ item.content)
      validateContextBudget P context
      pure
        { request with
          variablesJson := request.variablesJson.put "retrieval_context" (.str context)
          retrievedChunkIds := matched.map ChunkMatch.chunkId }

def reviewStatus (reviewRequired : Bool) : String := if reviewRequired then "pending" else "not_requested"

/-- `run_prompt`. The row is given the id `runId`. -/
def runPrompt (request : RunPromptRequest) (runId : Uuid) : RunCall AiRun := do
  let resolved ← callRun (.resolvePromptVersion request.promptTemplateKey request.promptVersionId)
  let request ← addContext P request
  let version := resolved.version
  let rendered := P.renderTemplate version.systemPrompt request.variablesJson
  let systemPrompt := match given request.additionalSystemContext with
    | some context => rstrip rendered ++ "\n\n" ++ context
    | none => rendered
  let userPrompt := P.renderTemplate version.userPromptTemplate request.variablesJson
  validatePromptBudget P systemPrompt userPrompt
  let run : AiRun :=
    { id := runId
      userId := request.userId
      promptTemplateId := some resolved.templateId
      promptVersionId := some version.id
      evaluationDatasetId := request.evaluationDatasetId
      evaluationCaseId := request.evaluationCaseId
      providerKey := version.providerKey
      modelName := version.modelName
      status := .running
      responseFormat := version.responseFormat
      variablesJson := request.variablesJson
      retrievalQuery := request.retrievalQuery
      retrievedChunkIds := request.retrievedChunkIds
      retrievalDegraded := request.retrievalDegraded
      memoryDegraded := request.memoryDegraded
      degradationReason := request.degradationReason
      injectionChunksFiltered := request.injectionChunksFiltered
      inputMessages := [("system", systemPrompt), ("user", userPrompt)]
      reviewStatus := reviewStatus request.reviewRequired }
  transact (.createRun run)
  transact .flush
  finalizeRunGeneration P run
    ⟨version.modelName, version.responseFormat, version.temperature, version.inputCostPerMillion,
      version.outputCostPerMillion⟩
    systemPrompt userPrompt request.reviewRequired

/-- The arguments of `run_rag_answer`. -/
structure RagAnswerRequest where
  userId : String
  query : String
  combinedContext : String
  retrievedChunkIds : List String := []
  reviewRequired : Bool := false
  retrievalDegraded : Bool := false
  memoryDegraded : Bool := false
  degradationReason : Option String := none
  injectionChunksFiltered : ℕ := 0

/-- `run_rag_answer` -/
def runRagAnswer (request : RagAnswerRequest) (runId : Uuid) : RunCall AiRun := do
  let spec ← callRun .resolveRagAnswerPrompt
  let referenceContext := strip request.combinedContext
  validateContextBudget P referenceContext
  let systemPrompt :=
    if referenceContext = "" then spec.systemPrompt else spec.systemPrompt ++ "\n\n" ++ referenceContext
  validatePromptBudget P systemPrompt request.query
  let run : AiRun :=
    { id := runId
      userId := request.userId
      promptTemplateId := spec.templateId
      promptVersionId := spec.versionId
      providerKey := spec.providerKey
      modelName := spec.modelName
      status := .running
      responseFormat := spec.responseFormat
      variablesJson := [("query", .str request.query)]
      retrievalQuery := some request.query
      retrievedChunkIds := request.retrievedChunkIds
      retrievalDegraded := request.retrievalDegraded
      memoryDegraded := request.memoryDegraded
      degradationReason := request.degradationReason
      injectionChunksFiltered := request.injectionChunksFiltered
      inputMessages := [("system", systemPrompt), ("user", request.query)]
      reviewStatus := reviewStatus request.reviewRequired }
  transact (.createRun run)
  transact .flush
  finalizeRunGeneration P run
    ⟨spec.modelName, spec.responseFormat, spec.temperature, spec.inputCostPerMillion, spec.outputCostPerMillion⟩
    systemPrompt request.query request.reviewRequired

/-! ### A session -/

/-- A session, and the call that it serves, if there is one. -/
structure AiSession where
  call : Option (RunCall AiRun) := none
  db : AiRunDb := {}

/-- No call is waiting for anything. -/
def AiSession.idle (s : AiSession) : Bool :=
  match s.call with
  | none | some (.done _) | some (.raised _) => true
  | some (.call _ _) | some (.emit _ _) => false

inductive AiSessionAction
  | runPrompt (request : RunPromptRequest) (runId : Uuid)
  | runRagAnswer (request : RagAnswerRequest) (runId : Uuid)
  | continue (input : Input RunOp RunAns RunException)
  /-- The session is committed by whoever else uses it, such as `_mark_message`. -/
  | commit
  | rollback

/-- An id that is taken is not drawn. -/
def AiSession.step (s : AiSession) : AiSessionAction → Option AiSession
  | .runPrompt request runId =>
    if s.idle ∧ runId ∉ s.db.session.map AiRun.id then
      some { s with call := some (GenericApp.runPrompt P request runId) }
    else none
  | .runRagAnswer request runId =>
    if s.idle ∧ runId ∉ s.db.session.map AiRun.id then
      some { s with call := some (GenericApp.runRagAnswer P request runId) }
    else none
  | .continue input =>
    match s.call with
    | none => none
    | some call => (runWorld.step (call, s.db) input).map fun (call, db) ↦ ⟨some call, db⟩
  | .commit => if s.idle then some { s with db := { s.db with committed := s.db.session } } else none
  | .rollback => if s.idle then some { s with db := { s.db with session := s.db.committed } } else none

def aiSessions : Machine AiSession AiSessionAction where
  init s := s = {}
  step := AiSession.step P

end Service

end GenericApp
