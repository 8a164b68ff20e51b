import MasResearch.Core.Exec
import MasResearch.Core.Rounding
import MasResearch.L2Dispatch.TaskState

/-!
# Final status and artifact (`core/status_fsm.py`, `agents/assembly.py`)

The status of a finished task counts which subtasks have a content, and the
artifact carries that status beside the assembled results. The four pydantic
models that check an agent's content (`Summary`, `Term`, `QuizQuestion`,
`Citation`) are the `Validators` parameter; a rejected content makes
`assembleArtifact` raise.

`assembleArtifact_status`: the status in the artifact is the one it was given.
-/
namespace MasResearch.L2

open MasResearch.L1

/-- `model_validate` of the result models; `none` is a `ValidationError`. -/
structure Validators where
  summary : Content → Option Summary
  term : Value → Option Term
  question : Value → Option QuizQuestion
  citation : Value → Option Citation

/-- mirrors src/core/status_fsm.py:19-42 -/
def determineFinalStatus (plan : Plan) (results : Results) : TaskStatus :=
  if plan.subtasks = [] then .completed
  else if ¬ plan.subtasks.any fun s => (results.content? s.id).isSome then .failed
  else if plan.subtasks.any fun s => (results.content? s.id).isNone then .partialReady
  else .completed

/-- A finished task never reads as planning or running. -/
theorem determineFinalStatus_terminal (plan : Plan) (results : Results) :
    (determineFinalStatus plan results).terminal = true := by
  unfold determineFinalStatus
  split
  · rfl
  split
  · rfl
  split <;> rfl

/-- `raise ValidationError` on the first rejected item.
mirrors src/agents/assembly.py:45-47,59-64 -/
def validateAll {α : Type} (check : Value → Option α) (raw : Option Value) : Except PyError (List α) :=
  match raw with
  | some (.list items) => items.mapM fun item => (check item).elim (.error .validationError) .ok
  | _ => .ok []

/-- One round of the loop of `assemble_payload`.
mirrors src/agents/assembly.py:53-64 -/
def assembleSubtask (v : Validators) (results : Results) (payload : ResultPayload) (subtask : Subtask) :
    Except PyError ResultPayload :=
  match results.content? subtask.id with
  | none => .ok payload
  | some content =>
    match subtask.operation with
    | .f3Summarize => (v.summary content).elim (.error .validationError) fun s =>
        .ok { payload with summary := some s }
    | .f5Terms => (validateAll v.term (content.get? "terms")).map fun ts => { payload with terms := ts }
    | .f4Test => (validateAll v.question (content.get? "questions")).map fun qs => { payload with quiz := qs }
    | .f6Recommend => (validateAll v.citation (content.get? "citations")).map fun cs =>
        { payload with citations := cs }
    | .f1Transcribe | .f2Ocr => .ok payload

/-- mirrors src/agents/assembly.py:50-65 -/
def assemblePayload (v : Validators) (plan : Plan) (results : Results) : Except PyError ResultPayload :=
  plan.subtasks.foldlM (assembleSubtask v results) {}

/-- mirrors src/agents/assembly.py:68-74 -/
def elapsed (s : TaskState) (sid : String) (now : ℚ) : ℚ :=
  match s.firstAttemptAt.get? sid with
  | none => 0
  | some started => roundTo 3 (s.resolvedAt.getD sid now - started)

/-- mirrors src/agents/assembly.py:95-104 -/
def failedOperation (s : TaskState) (now : ℚ) (subtask : Subtask) : FailedOperation where
  op := subtask.operation
  agent := subtask.agent.className
  reason := s.failReason.getD subtask.id "no_reply"
  retries := s.retries subtask.id
  elapsedSec := elapsed s subtask.id now

/-- mirrors src/agents/assembly.py:77-119 -/
def assembleArtifact (v : Validators) (s : TaskState) (status : TaskStatus) (now : ℚ) :
    Except PyError ResultArtifact :=
  let completed := s.plan.subtasks.filter fun t => (s.results.content? t.id).isSome
  let missing := s.plan.subtasks.filter fun t => (s.results.content? t.id).isNone
  (assemblePayload v s.plan s.results).map fun payload =>
    { taskId := s.task.id
      status := status
      operations := completed.map Subtask.operation
      result := payload
      degraded := missing.map Subtask.operation
      stats :=
        { durationSec := roundTo 3 (now - s.startedAt)
          agentsCalled := (s.plan.subtasks.map Subtask.agent).dedup.length + 1
          messagesExchanged := s.messagesExchanged
          failedOperations := missing.map (failedOperation s now) } }

theorem map_ok {ε α β : Type} {f : α → β} {x : Except ε α} {b : β} (h : x.map f = .ok b) :
    ∃ a, x = .ok a ∧ f a = b := by
  cases x with
  | error e => cases h
  | ok a => exact ⟨a, rfl, Except.ok.inj h⟩

theorem assembleArtifact_status {v : Validators} {s : TaskState} {status : TaskStatus} {now : ℚ}
    {a : ResultArtifact} (h : assembleArtifact v s status now = .ok a) : a.status = status := by
  obtain ⟨payload, -, rfl⟩ := map_ok h
  rfl

/-! ## The status counts contents -/

theorem determineFinalStatus_completed {plan : Plan} {results : Results} :
    determineFinalStatus plan results = .completed ↔
      ∀ sub ∈ plan.subtasks, (results.content? sub.id).isSome = true := by
  unfold determineFinalStatus
  split
  · rename_i hnil
    simp [hnil]
  rename_i hne
  obtain ⟨sub, hsub⟩ := List.exists_mem_of_ne_nil _ hne
  split
  · rename_i hno
    simp only [reduceCtorEq, false_iff, not_forall]
    exact ⟨sub, hsub, fun hs => hno (List.any_eq_true.mpr ⟨sub, hsub, hs⟩)⟩
  split
  · rename_i hsome
    obtain ⟨t, ht, hn⟩ := List.any_eq_true.mp hsome
    simp only [reduceCtorEq, false_iff, not_forall]
    exact ⟨t, ht, by simpa using hn⟩
  · rename_i hnone
    simpa [Option.isSome_iff_ne_none] using hnone

theorem determineFinalStatus_failed {plan : Plan} {results : Results} :
    determineFinalStatus plan results = .failed ↔
      plan.subtasks ≠ [] ∧ ∀ sub ∈ plan.subtasks, (results.content? sub.id).isNone = true := by
  unfold determineFinalStatus
  split
  · rename_i hnil
    simp [hnil]
  rename_i hne
  split
  · rename_i hno
    simpa [hne] using hno
  rename_i hany
  have hsome : ¬ ∀ sub ∈ plan.subtasks, (results.content? sub.id).isNone = true := by
    simpa [Option.isSome_iff_ne_none] using hany
  split <;> simp only [reduceCtorEq, hsome, and_false]

/-! ## Where the payload comes from -/

/-- Each part of the payload that is not empty belongs to an operation of `O`. -/
structure Origins (O : Operation → Prop) (payload : ResultPayload) : Prop where
  summary : payload.summary ≠ none → O .f3Summarize
  terms : payload.terms ≠ [] → O .f5Terms
  quiz : payload.quiz ≠ [] → O .f4Test
  citations : payload.citations ≠ [] → O .f6Recommend

section

variable {O : Operation → Prop} {v : Validators} {results : Results}

theorem Origins.assembleSubtask {payload payload' : ResultPayload} (h : Origins O payload) {sub : Subtask}
    (hO : (results.content? sub.id).isSome = true → O sub.operation)
    (ha : assembleSubtask v results payload sub = .ok payload') : Origins O payload' := by
  unfold L2.assembleSubtask at ha
  cases hc : results.content? sub.id with
  | none =>
    rw [hc] at ha
    cases ha; exact h
  | some content =>
    rw [hc] at ha hO
    have hO := hO rfl
    cases hop : sub.operation with
    | f1Transcribe => rw [hop] at ha; cases ha; exact h
    | f2Ocr => rw [hop] at ha; cases ha; exact h
    | f3Summarize =>
      rw [hop] at ha hO
      simp only at ha
      cases hv : v.summary content with
      | none => rw [hv] at ha; cases ha
      | some s => rw [hv] at ha; cases ha; exact { h with summary := fun _ => hO }
    | f4Test =>
      rw [hop] at ha hO
      obtain ⟨qs, -, rfl⟩ := map_ok ha
      exact { h with quiz := fun _ => hO }
    | f5Terms =>
      rw [hop] at ha hO
      obtain ⟨ts, -, rfl⟩ := map_ok ha
      exact { h with terms := fun _ => hO }
    | f6Recommend =>
      rw [hop] at ha hO
      obtain ⟨cs, -, rfl⟩ := map_ok ha
      exact { h with citations := fun _ => hO }

theorem Origins.foldlM : ∀ {subs : List Subtask} {payload payload' : ResultPayload}, Origins O payload →
    (∀ sub ∈ subs, (results.content? sub.id).isSome = true → O sub.operation) →
    subs.foldlM (L2.assembleSubtask v results) payload = .ok payload' → Origins O payload'
  | [], _, _, h, _, ha => by cases ha; exact h
  | sub :: subs, payload, payload', h, hO, ha => by
    rw [List.foldlM_cons] at ha
    cases h1 : L2.assembleSubtask v results payload sub with
    | error e => rw [h1] at ha; cases ha
    | ok p =>
      rw [h1] at ha
      exact Origins.foldlM (h.assembleSubtask (hO sub List.mem_cons_self) h1)
        (fun t ht => hO t (List.mem_cons_of_mem _ ht)) ha

end

end MasResearch.L2
