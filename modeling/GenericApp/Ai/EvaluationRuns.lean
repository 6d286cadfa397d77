import GenericApp.Ai.ScoringGuarantees
import GenericApp.Foundation.FanOut

/-!
# The run of an evaluation

`execute_evaluation_run` deals the cases of a dataset in turn to some workers, adds up what they put into a queue, writes
the items in batches, and settles the run. The workers and the loop are those of `FanOut`; here are what a worker does
with a case, the body of the loop, and the end.

Whatever the order in which the workers go on, the run is settled, and where no case raises it counts every case once
(`evaluationRun_accounts`). Its means are rounded to four decimals.
-/

namespace GenericApp

open Py Machine

/-! ### One case -/

/-- The metrics by their names, in the order of `EvaluationMetrics.as_dict`. -/
def metricFields : List (String × (EvaluationMetrics → ℚ)) :=
  [("output_score", fun metrics ↦ metrics.outputScore),
    ("retrieval_recall", fun metrics ↦ metrics.retrievalRecall),
    ("retrieval_precision", fun metrics ↦ metrics.retrievalPrecision),
    ("reciprocal_rank", fun metrics ↦ metrics.reciprocalRank),
    ("citation_recall", fun metrics ↦ metrics.citationRecall),
    ("citation_precision", fun metrics ↦ metrics.citationPrecision),
    ("groundedness", fun metrics ↦ metrics.groundedness),
    ("answerability", fun metrics ↦ metrics.answerability),
    ("injection_resistance", fun metrics ↦ metrics.injectionResistance),
    ("contradiction_consistency", fun metrics ↦ metrics.contradictionConsistency),
    ("semantic_similarity", fun metrics ↦ metrics.semanticSimilarity),
    ("latency_ms", fun metrics ↦ metrics.latencyMs),
    ("estimated_cost_micros", fun metrics ↦ metrics.estimatedCostMicros),
    ("score", fun metrics ↦ metrics.score)]

/-- `EvaluationMetrics.as_dict` -/
def EvaluationMetrics.asDict (metrics : EvaluationMetrics) : List (String × ℚ) :=
  metricFields.map fun entry ↦ (entry.1, entry.2 metrics)

/-- Every metric is found under its name. -/
theorem lookup_asDict (metrics : EvaluationMetrics) : ∀ entry ∈ metricFields,
    metrics.asDict.lookup entry.1 = some (entry.2 metrics) := by
  simp only [metricFields, List.forall_mem_cons]
  exact ⟨rfl, rfl, rfl, rfl, rfl, rfl, rfl, rfl, rfl, rfl, rfl, rfl, rfl, rfl, fun _ h ↦ absurd h List.not_mem_nil⟩

/-- `f"{x:.2f}"` of what is not negative. -/
def twoDecimals (x : ℚ) : String :=
  let hundredths := (roundTo 2 x * 100).num.toNat
  toString (hundredths / 100) ++ "." ++ (if hundredths % 100 < 10 then "0" else "") ++ toString (hundredths % 100)

/-- A row of `ai_evaluation_cases`: its key, and what it expects. -/
structure EvaluationCaseRow (J : Type) where
  id : String
  case : AiEvaluationCase J

/-- What comes of `run_prompt` on a case: the fields that are used of the row of `ai_runs`, and the contents of the chunks
that it retrieved. -/
structure CaseRun (J : Type) where
  id : String
  outputText : Option String
  outputJson : Option J
  retrievedChunkIds : List String
  retrievedContents : List String
  modelName : String
  latencyMs : Option ℕ
  estimatedCostMicros : Option ℕ

/-- `_EvaluationCaseResult` -/
structure EvaluationCaseResult where
  caseId : String
  aiRunId : String
  score : ℚ
  passed : Bool
  notes : String
  metrics : List (String × ℚ)

section Case

variable {J : Type} [BEq J] (rules : TextRules)

/-- `format_evaluation_notes` -/
def formatEvaluationNotes (metrics : EvaluationMetrics) (case : AiEvaluationCase J) : String :=
  "rag-eval-v2-grounded-v3; type=" ++ (caseType rules case).value ++ "; output=" ++ twoDecimals metrics.outputScore ++
    "; retrieval recall " ++ twoDecimals metrics.retrievalRecall ++
    "; retrieval precision " ++ twoDecimals metrics.retrievalPrecision ++
    "; MRR " ++ twoDecimals metrics.reciprocalRank ++
    "; citation recall " ++ twoDecimals metrics.citationRecall ++
    "; citation precision " ++ twoDecimals metrics.citationPrecision ++
    "; groundedness " ++ twoDecimals metrics.groundedness ++
    "; answerability " ++ twoDecimals metrics.answerability ++
    "; injection resistance " ++ twoDecimals metrics.injectionResistance ++
    "; contradiction consistency " ++ twoDecimals metrics.contradictionConsistency ++
    "; semantic similarity " ++ twoDecimals metrics.semanticSimilarity

/-- The metrics of a case after its run. -/
def metricsOf (row : EvaluationCaseRow J) (run : CaseRun J) : EvaluationMetrics :=
  evaluateCase rules run.outputText run.outputJson run.retrievedChunkIds row.case run.retrievedContents run.latencyMs
    run.estimatedCostMicros

/-- `_execute_evaluation_case`, after `run_prompt` -/
def executeEvaluationCase (row : EvaluationCaseRow J) (run : CaseRun J) : EvaluationCaseResult :=
  let metrics := metricsOf rules row run
  { caseId := row.id
    aiRunId := run.id
    score := metrics.score
    passed := metrics.passed
    notes := formatEvaluationNotes rules metrics row.case ++ "; model=" ++ run.modelName ++ "; latency_ms=" ++
      toString (run.latencyMs.getD 0) ++ "; cost_micros=" ++ toString (run.estimatedCostMicros.getD 0)
    metrics := metrics.asDict }

end Case

/-! ### The loop over the results -/

/-- `AiEvaluationRunItem` -/
structure AiEvaluationRunItem where
  evaluationRunId : String
  evaluationCaseId : String
  aiRunId : String
  score : ℚ
  passed : Bool
  notes : String
  metricsJson : List (String × ℚ)

/-- The item of a result. -/
def itemPayload (evaluationRunId : String) (result : EvaluationCaseResult) : AiEvaluationRunItem where
  evaluationRunId := evaluationRunId
  evaluationCaseId := result.caseId
  aiRunId := result.aiRunId
  score := result.score
  passed := result.passed
  notes := result.notes
  metricsJson := result.metrics

/-- The variables of the loop, with the items that the session was given so far. -/
structure CollectedResults where
  results : List EvaluationCaseResult := []
  scores : List ℚ := []
  passedCases : ℕ := 0
  itemPayloads : List AiEvaluationRunItem := []
  written : List AiEvaluationRunItem := []

/-- The body of the loop. -/
def collectResult (evaluationRunId : String) (writeBatchSize : ℕ) (collected : CollectedResults) (result : EvaluationCaseResult) :
    CollectedResults :=
  let itemPayloads := collected.itemPayloads ++ [itemPayload evaluationRunId result]
  let full := decide (writeBatchSize ≤ itemPayloads.length)
  { results := collected.results ++ [result]
    scores := collected.scores ++ [result.score]
    passedCases := collected.passedCases + if result.passed then 1 else 0
    itemPayloads := if full then [] else itemPayloads
    written := if full then collected.written ++ itemPayloads else collected.written }

/-- `sum(xs) / len(xs)`, and nought for no numbers. -/
def mean (xs : List ℚ) : ℚ := xs.sum / xs.length

/-- `metrics_json`: a mean for each name of the first result. `none` is a `KeyError`. -/
def meanMetrics (results : List EvaluationCaseResult) : Option (List (String × ℚ)) :=
  ((results.head?.map fun result ↦ result.metrics.map Prod.fst).getD []).mapM fun name ↦ do
    let values ← results.mapM fun result ↦ result.metrics.lookup name
    pure (name, roundTo 4 (mean values))

/-! ### The run -/

/-- The row of `ai_evaluation_runs`. -/
structure AiEvaluationRun where
  id : String
  status : String
  totalCases : ℕ
  passedCases : ℕ
  averageScore : ℚ
  metricsJson : List (String × ℚ)
  completedAt : Option DateTime

/-- A call of `execute_evaluation_run` after it has read the cases: the workers and the loop, the row of the run and its
items as they are committed, and whether the call has ended. -/
structure Evaluation (J X : Type) where
  fan : FanOut (EvaluationCaseRow J) EvaluationCaseResult X CollectedResults
  run : AiEvaluationRun
  items : List AiEvaluationRunItem
  settled : Bool

/-- The steps: those of the workers and of the loop, and the end of the call. -/
inductive EvaluationAction (J X : Type)
  | work (action : FanAction (CaseRun J) X)
  | settle (now : DateTime)

section Run

variable {J X : Type} [BEq J] (rules : TextRules) (cases : List (EvaluationCaseRow J)) (writeBatchSize : ℕ)

/-- `_mark_evaluation_run_failed` on a run whose cases were counted. -/
def markEvaluationRunFailed (s : Evaluation J X) (now : DateTime) : Evaluation J X :=
  if s.run.status ≠ "running" then { s with settled := true }
  else
    { s with
      run := { s.run with status := "failed", totalCases := cases.length, completedAt := some now }
      items := s.items ++ s.fan.acc.written
      settled := true }

/-- The end: `except Exception` where the loop has met an exception, and else what follows the loop. A metric that is
missing raises when the session has the run as `completed`, so the run is not marked and nothing is committed. -/
def settleEvaluationRun (s : Evaluation J X) (now : DateTime) : Evaluation J X :=
  match s.fan.failed, meanMetrics s.fan.acc.results with
  | some _, _ => markEvaluationRunFailed cases s now
  | none, none => { s with settled := true }
  | none, some metricsJson =>
    { s with
      run := { s.run with
        status := "completed"
        totalCases := cases.length
        passedCases := s.fan.acc.passedCases
        averageScore := roundTo 4 (mean s.fan.acc.scores)
        metricsJson := metricsJson
        completedAt := some now }
      items := s.items ++ (s.fan.acc.written ++ s.fan.acc.itemPayloads)
      settled := true }

/-- One step of the call. -/
def evaluationStep (s : Evaluation J X) : EvaluationAction J X → Option (Evaluation J X)
  | .work action =>
    (s.fan.step (executeEvaluationCase rules) (collectResult s.run.id writeBatchSize) action).map fun fan ↦
      { s with fan := fan }
  | .settle now => if s.fan.closed ∧ s.settled = false then some (settleEvaluationRun cases s now) else none

/-- `case_batches`, without the empty ones. -/
def caseBatches (concurrency : ℕ) : List (List (EvaluationCaseRow J)) :=
  ((List.range (max 1 concurrency)).map fun index ↦ FanOut.stride (max 1 concurrency) index cases).filter
    fun batch ↦ !batch.isEmpty

/-- The call when the workers have their cases. -/
def startEvaluation (concurrency : ℕ) (run : AiEvaluationRun) : Evaluation J X where
  fan := FanOut.start cases (caseBatches cases concurrency) {}
  run := run
  items := []
  settled := false

/-- The call on a run that is `running`, in any order of the steps of its workers and of its loop. -/
def evaluationMachine (concurrency : ℕ) (run : AiEvaluationRun) : Machine (Evaluation J X) (EvaluationAction J X) where
  init s := s = startEvaluation cases concurrency run ∧ run.status = "running"
  step := evaluationStep rules cases writeBatchSize

end Run

/-! ### What the loop computes -/

/-- What the loop has after some results. -/
structure Collects (evaluationRunId : String) (taken : List EvaluationCaseResult) (collected : CollectedResults) :
    Prop where
  results : collected.results = taken
  scores : collected.scores = taken.map fun result ↦ result.score
  passedCases : collected.passedCases = taken.countP fun result ↦ result.passed
  items : collected.written ++ collected.itemPayloads = taken.map (itemPayload evaluationRunId)

theorem collects_collectResult {evaluationRunId : String} {taken : List EvaluationCaseResult}
    {collected : CollectedResults} (h : Collects evaluationRunId taken collected) (writeBatchSize : ℕ)
    (result : EvaluationCaseResult) :
    Collects evaluationRunId (taken ++ [result]) (collectResult evaluationRunId writeBatchSize collected result) where
  results := congrArg (· ++ [result]) h.results
  scores := by rw [List.map_append, ← h.scores]; rfl
  passedCases := by
    rw [List.countP_append, ← h.passedCases, List.countP_singleton]
    rfl
  items := by
    rw [List.map_append, ← h.items, List.append_assoc]
    dsimp only [collectResult]
    split
    · exact List.append_nil _
    · rfl

theorem collects_foldl (evaluationRunId : String) (writeBatchSize : ℕ) (results : List EvaluationCaseResult) :
    Collects evaluationRunId results (results.foldl (collectResult evaluationRunId writeBatchSize) {}) := by
  induction results using List.reverseRecOn with
  | nil => exact ⟨rfl, rfl, rfl, rfl⟩
  | append_singleton results result ih =>
    rw [List.foldl_append]
    exact collects_collectResult ih writeBatchSize result

section Means

variable {J : Type} [BEq J] (rules : TextRules)

theorem mapM_eq_some {α β : Type} {f : α → Option β} {g : α → β} {xs : List α} (h : ∀ x ∈ xs, f x = some (g x)) :
    xs.mapM f = some (xs.map g) := by
  induction xs with
  | nil => rfl
  | cons x xs ih =>
    rw [List.mapM_cons, h x List.mem_cons_self, ih fun y hy ↦ h y (List.mem_cons_of_mem x hy)]
    rfl

/-- The results of cases have all metrics. -/
theorem meanMetrics_eq (runs : List (EvaluationCaseRow J × CaseRun J)) :
    meanMetrics (runs.map fun run ↦ executeEvaluationCase rules run.1 run.2) =
      some (if runs = [] then [] else metricFields.map fun entry ↦
        (entry.1, roundTo 4 (mean (runs.map fun run ↦ entry.2 (metricsOf rules run.1 run.2))))) := by
  rcases runs with - | ⟨run, runs⟩
  · rfl
  rw [if_neg (List.cons_ne_nil run runs), meanMetrics]
  have hnames : (((run :: runs).map fun run ↦ executeEvaluationCase rules run.1 run.2).head?.map fun result ↦
      result.metrics.map Prod.fst).getD [] = metricFields.map Prod.fst := rfl
  rw [hnames, List.mapM_map]
  refine mapM_eq_some fun entry hentry ↦ ?_
  have hvalues : ((run :: runs).map fun run ↦ executeEvaluationCase rules run.1 run.2).mapM
      (fun result ↦ result.metrics.lookup entry.1) =
      some ((run :: runs).map fun run ↦ entry.2 (metricsOf rules run.1 run.2)) := by
    rw [List.mapM_map]
    exact mapM_eq_some fun run _ ↦ lookup_asDict (metricsOf rules run.1 run.2) entry hentry
  simp only [Function.comp_apply, hvalues]
  rfl

end Means

/-! ### Every run of the machine -/

section Machine

variable {J X : Type} [BEq J] {rules : TextRules} {cases : List (EvaluationCaseRow J)} {concurrency writeBatchSize : ℕ}
  {run : AiEvaluationRun} {s t : Evaluation J X} {a : EvaluationAction J X}

/-- What is so in every state: the loop keeps its invariant, the row is as it was found until the call ends, and what the
call has made of it then is what `settleEvaluationRun` makes of it. -/
structure EvaluationInvariant (rules : TextRules) (cases : List (EvaluationCaseRow J)) (writeBatchSize : ℕ)
    (run : AiEvaluationRun) (s : Evaluation J X) : Prop where
  fan : s.fan.Invariant (executeEvaluationCase rules) (collectResult run.id writeBatchSize) cases {}
  pending : s.settled = false → s = ⟨s.fan, run, [], false⟩
  settled : s.settled = true → s.fan.closed = true ∧ ∃ now, s = settleEvaluationRun cases ⟨s.fan, run, [], false⟩ now

omit [BEq J] in
theorem flatten_caseBatches (cases : List (EvaluationCaseRow J)) (concurrency : ℕ) :
    (caseBatches cases concurrency).flatten.Perm cases := by
  obtain ⟨step, hstep⟩ : ∃ step, max 1 concurrency = step + 1 := Nat.exists_eq_succ_of_ne_zero (by omega)
  rw [caseBatches, List.flatten_filter_not_isEmpty, hstep]
  exact FanOut.stride_perm step cases

omit [BEq J] in
theorem settleEvaluationRun_frame (cases : List (EvaluationCaseRow J)) (s : Evaluation J X) (now : DateTime) :
    (settleEvaluationRun cases s now).fan = s.fan ∧ (settleEvaluationRun cases s now).settled = true ∧
      (settleEvaluationRun cases s now).run.id = s.run.id := by
  rw [settleEvaluationRun]
  split
  · rw [markEvaluationRunFailed]
    split <;> exact ⟨rfl, rfl, rfl⟩
  · exact ⟨rfl, rfl, rfl⟩
  · exact ⟨rfl, rfl, rfl⟩

theorem work_eq_some {action : FanAction (CaseRun J) X}
    (h : evaluationStep rules cases writeBatchSize s (.work action) = some t) :
    ∃ fan, s.fan.step (executeEvaluationCase rules) (collectResult s.run.id writeBatchSize) action = some fan ∧
      t = { s with fan := fan } := by
  obtain ⟨fan, hfan, rfl⟩ := Option.map_eq_some_iff.1 h
  exact ⟨fan, hfan, rfl⟩

theorem settle_eq_some {now : DateTime} (h : evaluationStep rules cases writeBatchSize s (.settle now) = some t) :
    s.fan.closed = true ∧ s.settled = false ∧ t = settleEvaluationRun cases s now := by
  rw [evaluationStep] at h
  split at h
  · next hend => exact ⟨hend.1, hend.2, (Option.some.inj h).symm⟩
  · exact nomatch h

theorem evaluationInvariant_step (h : EvaluationInvariant rules cases writeBatchSize run s)
    (hstep : evaluationStep rules cases writeBatchSize s a = some t) :
    EvaluationInvariant rules cases writeBatchSize run t := by
  cases a with
  | work action =>
    obtain ⟨fan, hfan, rfl⟩ := work_eq_some hstep
    rcases hsettled : s.settled with - | -
    · have hpending := h.pending hsettled
      have hrun : s.run = run := congrArg Evaluation.run hpending
      rw [hrun] at hfan
      rw [hpending]
      exact ⟨FanOut.invariant_step h.fan hfan, fun _ ↦ rfl, fun hnow ↦ absurd hnow Bool.false_ne_true⟩
    · obtain ⟨hclosed, now, hs⟩ := h.settled hsettled
      have hrun : s.run.id = run.id := by
        rw [hs]
        exact (settleEvaluationRun_frame cases _ now).2.2
      rw [hrun] at hfan
      exact nomatch (FanOut.step_closed h.fan hclosed).symm.trans hfan
  | settle now =>
    obtain ⟨hclosed, hsettled, rfl⟩ := settle_eq_some hstep
    have hframe := settleEvaluationRun_frame cases s now
    refine ⟨hframe.1 ▸ h.fan, fun hnot ↦ ?_, fun _ ↦ ⟨hframe.1 ▸ hclosed, now, ?_⟩⟩
    · rw [hframe.2.1] at hnot
      exact nomatch hnot
    · rw [hframe.1, ← h.pending hsettled]

theorem evaluationInvariant_reachable
    (h : (evaluationMachine rules cases writeBatchSize concurrency run).Reachable anyStep s) :
    EvaluationInvariant rules cases writeBatchSize run s := by
  refine Reachable.invariant (fun s hinit ↦ ?_) (fun s a t hs _ hstep ↦ evaluationInvariant_step hs hstep) h
  rw [hinit.1]
  exact ⟨FanOut.invariant_start _ (flatten_caseBatches cases concurrency), fun _ ↦ rfl,
    fun hsettled ↦ absurd hsettled Bool.false_ne_true⟩

/-- How many steps there can still be, at most. -/
def Evaluation.remaining (s : Evaluation J X) : ℕ := s.fan.remaining + if s.settled then 0 else 1

theorem evaluation_remaining_lt (hstep : evaluationStep rules cases writeBatchSize s a = some t) :
    t.remaining < s.remaining := by
  cases a with
  | work action =>
    obtain ⟨fan, hfan, rfl⟩ := work_eq_some hstep
    exact Nat.add_lt_add_right (FanOut.remaining_lt hfan) _
  | settle now =>
    obtain ⟨-, hsettled, rfl⟩ := settle_eq_some hstep
    have hframe := settleEvaluationRun_frame cases s now
    rw [Evaluation.remaining, Evaluation.remaining, hframe.1, hframe.2.1, hsettled]
    exact Nat.lt_succ_self _

theorem evaluation_exists_step (h : EvaluationInvariant rules cases writeBatchSize run s) (hsettled : s.settled = false) :
    ∃ a, (evaluationStep rules cases writeBatchSize s a).isSome := by
  rcases hclosed : s.fan.closed with - | -
  · have hrun : s.run = run := congrArg Evaluation.run (h.pending hsettled)
    obtain ⟨action, haction⟩ := FanOut.exists_step (.ok ⟨"", none, none, [], [], "", none, none⟩) h.fan hclosed
    refine ⟨.work action, ?_⟩
    rw [evaluationStep, Option.isSome_map, hrun]
    exact haction
  · exact ⟨.settle 0, by rw [evaluationStep, if_pos ⟨hclosed, hsettled⟩]; rfl⟩

/-- A settled run that counts every case once: each was executed with some outcome, and the run has the items, the count
and the means of these outcomes. -/
structure CountsEveryCase (rules : TextRules) (cases : List (EvaluationCaseRow J)) (s : Evaluation J X)
    (runs : List (EvaluationCaseRow J × CaseRun J)) : Prop where
  executed : s.fan.executed = runs.map fun run ↦ (run.1, .ok (executeEvaluationCase rules run.1 run.2))
  each_once : (runs.map Prod.fst).Perm cases
  items : s.items = runs.map fun run ↦ itemPayload s.run.id (executeEvaluationCase rules run.1 run.2)
  status : s.run.status = "completed"
  totalCases : s.run.totalCases = cases.length
  passedCases : s.run.passedCases = runs.countP fun run ↦ (metricsOf rules run.1 run.2).passed
  averageScore : s.run.averageScore = roundTo 4 (mean (runs.map fun run ↦ (metricsOf rules run.1 run.2).score))
  metricsJson : s.run.metricsJson = if runs = [] then [] else metricFields.map fun entry ↦
    (entry.1, roundTo 4 (mean (runs.map fun run ↦ entry.2 (metricsOf rules run.1 run.2))))

/-- The outcomes of a record without failures. -/
theorem exists_runs {ι ρ R : Type} {answer : ι → ρ → R} {executed : List (ι × Except X R)}
    (hanswers : ∀ entry ∈ executed, ∃ outcome : Except X ρ, entry.2 = outcome.map (answer entry.1))
    (hok : ∀ entry ∈ executed, entry.2.toOption ≠ none) :
    ∃ runs : List (ι × ρ), executed = runs.map fun run ↦ (run.1, .ok (answer run.1 run.2)) := by
  induction executed with
  | nil => exact ⟨[], rfl⟩
  | cons entry executed ih =>
    rw [List.forall_mem_cons] at hanswers hok
    obtain ⟨runs, rfl⟩ := ih hanswers.2 hok.2
    obtain ⟨job, answered⟩ := entry
    obtain ⟨outcome, houtcome⟩ := hanswers.1
    dsimp only at houtcome
    subst houtcome
    cases outcome with
    | ok result => exact ⟨(job, result) :: runs, rfl⟩
    | error failure => exact absurd rfl hok.1

theorem countsEveryCase (h : EvaluationInvariant rules cases writeBatchSize run s) (hsettled : s.settled = true)
    (hok : ∀ entry ∈ s.fan.executed, entry.2.toOption ≠ none) : ∃ runs, CountsEveryCase rules cases s runs := by
  obtain ⟨hclosed, now, hs⟩ := h.settled hsettled
  obtain ⟨hfailed, hperm, htaken⟩ := FanOut.answered h.fan hclosed hok
  obtain ⟨runs, hruns⟩ := exists_runs h.fan.answers hok
  have hresults : s.fan.taken = runs.map fun run ↦ executeEvaluationCase rules run.1 run.2 := by
    rw [hruns, List.map_map] at htaken
    refine List.map_injective_iff.2 (fun a b hab ↦ Except.ok.inj hab) (htaken.symm.trans ?_)
    rw [List.map_map]
    rfl
  have hcollected := collects_foldl run.id writeBatchSize s.fan.taken
  rw [← h.fan.computed, hresults] at hcollected
  have hend : s = settleEvaluationRun cases ⟨s.fan, run, [], false⟩ now := hs
  rw [settleEvaluationRun] at hend
  simp only [hfailed, hcollected.results, meanMetrics_eq] at hend
  rw [hruns, List.map_map] at hperm
  have hrun := congrArg Evaluation.run hend
  refine ⟨runs, hruns, hperm, ?_, ?_, ?_, ?_, ?_, ?_⟩
  · rw [congrArg Evaluation.items hend, hrun]
    exact hcollected.items.trans List.map_map
  · rw [hrun]
  · rw [hrun]
  · rw [hrun]
    exact hcollected.passedCases.trans List.countP_map
  · rw [hrun]
    dsimp only
    rw [hcollected.scores, List.map_map]
    rfl
  · rw [hrun]

theorem settled_failed (h : EvaluationInvariant rules cases writeBatchSize run s) (hrunning : run.status = "running")
    (hsettled : s.settled = true) (hbad : ∃ entry ∈ s.fan.executed, entry.2.toOption = none) :
    s.run.status = "failed" := by
  obtain ⟨hclosed, now, hs⟩ := h.settled hsettled
  obtain ⟨failure, hfailed⟩ := Option.isSome_iff_exists.1 (FanOut.met_failure h.fan hclosed hbad)
  rw [hs, settleEvaluationRun]
  simp only [hfailed]
  rw [markEvaluationRunFailed, if_neg (not_not.2 hrunning)]

/-- **An evaluation run accounts for every case once.** Until the call ends there is a next step, where the loop waits at
an empty queue a worker is not done, and no run of steps goes on forever. Where no case has raised, every case was
executed once and the run is completed with one item for each, their counts, and their means rounded to four decimals;
where one has, the run has failed. -/
theorem evaluationRun_accounts
    (h : (evaluationMachine rules cases writeBatchSize concurrency run).Reachable anyStep s) :
    (s.settled = false → ∃ a, (evaluationStep rules cases writeBatchSize s a).isSome) ∧
      (s.fan.failed = none → s.fan.queue = [] → s.fan.left ≠ 0 → s.fan.workers.all FanWorker.done = false) ∧
      (∀ a t, evaluationStep rules cases writeBatchSize s a = some t → t.remaining < s.remaining) ∧
      (s.settled = true → (∀ entry ∈ s.fan.executed, entry.2.toOption ≠ none) →
        ∃ runs, CountsEveryCase rules cases s runs) ∧
      (s.settled = true → (∃ entry ∈ s.fan.executed, entry.2.toOption = none) → s.run.status = "failed") := by
  have hinvariant := evaluationInvariant_reachable h
  have hrunning : run.status = "running" := by
    obtain ⟨s₀, hinit, -⟩ := h
    exact hinit.2
  exact ⟨evaluation_exists_step hinvariant, fun hfailed hqueue hleft ↦
    FanOut.someone_works hinvariant.fan hfailed hqueue hleft, fun _ _ hstep ↦ evaluation_remaining_lt hstep,
    countsEveryCase hinvariant, settled_failed hinvariant hrunning⟩

end Machine

/-! ### A run of three cases -/

/-- An open run. -/
def openEvaluationRun : AiEvaluationRun where
  id := "run-1"
  status := "running"
  totalCases := 0
  passedCases := 0
  averageScore := 0
  metricsJson := []
  completedAt := none

/-- Three cases that expect a chunk and a text. -/
def threeCases : List (EvaluationCaseRow String) :=
  ["case-1", "case-2", "case-3"].map fun id ↦
    ⟨id, { expectedChunkIds := ["chunk-1"], expectedOutputText := some "PostgreSQL" }⟩

/-- The right answer with its source, and an empty one. -/
def rightRun : CaseRun String := ⟨"ai-run-1", some "PostgreSQL [Source 1]", none, ["chunk-1"], [], "model", none, none⟩

@[inherit_doc rightRun]
def emptyRun : CaseRun String := ⟨"ai-run-2", some "", none, [], [], "model", none, none⟩

/-- One worker answers the first case and gives empty answers to the others. -/
def threeSteps : List (EvaluationAction String Unit) :=
  [.work (.start 0), .work (.finish 0 (.ok rightRun)), .work .take, .work (.start 0),
    .work (.finish 0 (.ok emptyRun)), .work (.start 0), .work (.finish 0 (.ok emptyRun)), .work .take, .work .take,
    .work .close, .settle 0]

theorem threeSteps_isSome : ((evaluationMachine asciiRules threeCases 2 1 openEvaluationRun).run anyStep
    (startEvaluation threeCases 1 openEvaluationRun) threeSteps).isSome = true := by
  decide +kernel

/-- The run after these steps. -/
def threeSettled : Evaluation String Unit := Option.get _ threeSteps_isSome

theorem reachable_threeSettled :
    (evaluationMachine asciiRules threeCases 2 1 openEvaluationRun).Reachable anyStep threeSettled :=
  reachable_run (by exact ⟨rfl, rfl⟩) threeSteps_isSome

theorem evaluationRun_accounts_three :
    threeSettled.settled = true ∧ ∃ runs, CountsEveryCase asciiRules threeCases threeSettled runs :=
  ⟨by decide +kernel, (evaluationRun_accounts reachable_threeSettled).2.2.2.1 (by decide +kernel) (by decide +kernel)⟩

/-- **The means are rounded**: one case of three is answered, and the average is not a third. -/
theorem evaluationRun_rounds :
    ¬∀ s : Evaluation String Unit,
      (evaluationMachine asciiRules threeCases 2 1 openEvaluationRun).Reachable anyStep s → s.settled = true →
      (∀ entry ∈ s.fan.executed, entry.2.toOption ≠ none) → s.run.averageScore = mean s.fan.acc.scores := by
  intro h
  have haverage := h threeSettled reachable_threeSettled (by decide +kernel) (by decide +kernel)
  have hrounded : threeSettled.run.averageScore = 3333 / 10000 ∧ mean threeSettled.fan.acc.scores = 1 / 3 := by
    decide +kernel
  rw [hrounded.1, hrounded.2] at haverage
  exact absurd haverage (by decide +kernel)

end GenericApp
