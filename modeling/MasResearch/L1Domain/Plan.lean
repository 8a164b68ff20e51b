import MasResearch.L1Domain.Schemas
import Mathlib.Data.Finset.Image
import Mathlib.Data.Finset.Max

/-!
# Plans (`plan.py`)

`buildPlan` turns a task into its DAG of subtasks: one per eligible requested
operation, with the id `st-{task}-{op}` and the upstream operations that are
themselves in the plan as `dependsOn`. Requested operations may repeat; their
subtasks are then equal.

* `mem_buildPlan`: the subtasks of a plan are exactly `subtaskFor` its eligible
  operations.
* `subtask_ext`: an id determines its subtask, so `get?` finds it (`get?_of_mem`).
* `dep_mem_ids`: a dependency of a plan is again one of its subtasks.
* `exists_ready`: the dependencies are acyclic (`rank`), so every non-empty set
  of plan ids has a member none of whose dependencies is in the set.
* `subtaskFor_congr`: subtasks depend on the set of requested operations only, not
  on their order.
-/
namespace MasResearch.L1

/-- mirrors src/plan.py:15 -/
inductive AgentName where
  | transcriber | ocr | summarizer | testGenerator | terminology | recommender
  deriving DecidableEq, Repr

def AgentName.value : AgentName → String
  | .transcriber => "transcriber"
  | .ocr => "ocr"
  | .summarizer => "summarizer"
  | .testGenerator => "test_generator"
  | .terminology => "terminology"
  | .recommender => "recommender"

/-- mirrors src/plan.py:86-93 (`AGENT_CLASS_NAMES`) -/
def AgentName.className : AgentName → String
  | .transcriber => "TranscriberAgent"
  | .ocr => "OCRAgent"
  | .summarizer => "SummarizerAgent"
  | .testGenerator => "TestGeneratorAgent"
  | .terminology => "TerminologyAgent"
  | .recommender => "RecommenderAgent"

/-- mirrors src/plan.py:17 -/
inductive JoinPolicy where
  | all | any
  deriving DecidableEq, Repr

/-- mirrors src/plan.py:19 -/
def requiredAgents : List AgentName := [.transcriber, .ocr]

/-- mirrors src/plan.py:22-29 -/
def operationToAgent : Operation → AgentName
  | .f1Transcribe => .transcriber
  | .f2Ocr => .ocr
  | .f3Summarize => .summarizer
  | .f4Test => .testGenerator
  | .f5Terms => .terminology
  | .f6Recommend => .recommender

/-- mirrors src/plan.py:34-36 -/
def anyJoinOperations : List Operation := [.f3Summarize, .f5Terms, .f6Recommend]

/-- mirrors src/plan.py:39-52 -/
structure Subtask where
  id : String
  agent : AgentName
  operation : Operation
  payload : Content := []
  dependsOn : List String := []
  required : Bool
  join : JoinPolicy := .all

/-- mirrors src/plan.py:55-66 -/
structure Plan where
  taskId : String
  subtasks : List Subtask

/-- `_by_id()` keeps the last subtask of each id; `none` is the `KeyError`.
mirrors src/plan.py:68-76 -/
def Plan.get? (p : Plan) (subtaskId : String) : Option Subtask :=
  p.subtasks.reverse.find? fun s => s.id = subtaskId

/-- `{subtask.id for subtask in plan.subtasks}`. -/
def Plan.ids (p : Plan) : Finset String := (p.subtasks.map Subtask.id).toFinset

/-- `DEPENDENCY_MAP.get(operation, ())`.
mirrors src/plan.py:79-84 -/
def dependencyMap : Operation → List Operation
  | .f3Summarize => [.f1Transcribe, .f2Ocr]
  | .f5Terms => [.f1Transcribe, .f2Ocr]
  | .f4Test => [.f3Summarize]
  | .f6Recommend => [.f3Summarize, .f5Terms]
  | .f1Transcribe => []
  | .f2Ocr => []

/-- mirrors src/plan.py:96-98 -/
def subtaskIdFor (taskId : String) (operation : Operation) : String :=
  "st-" ++ taskId ++ "-" ++ operation.value

/-- mirrors src/plan.py:101-112 -/
def eligibleOperations (task : Task) : List Operation :=
  let hasAudio := task.documents.any fun d => d.documentType = .audio
  let hasPdfOrImage := task.documents.any fun d => d.documentType = .pdf ∨ d.documentType = .image
  task.requestedOutputs.filter fun op =>
    ¬ (op = .f1Transcribe ∧ ¬ hasAudio) ∧ ¬ (op = .f2Ocr ∧ ¬ hasPdfOrImage)

/-- mirrors src/plan.py:115-118 -/
def dependencies (operation : Operation) (eligible : List Operation) (taskId : String) : List String :=
  ((dependencyMap operation).filter (· ∈ eligible)).map (subtaskIdFor taskId)

/-- The subtask `build_plan` makes for one eligible operation.
mirrors src/plan.py:135-142 -/
def subtaskFor (taskId : String) (eligible : List Operation) (operation : Operation) : Subtask where
  id := subtaskIdFor taskId operation
  agent := operationToAgent operation
  operation := operation
  dependsOn := dependencies operation eligible taskId
  required := operationToAgent operation ∈ requiredAgents
  join := if operation ∈ anyJoinOperations then .any else .all

/-- mirrors src/plan.py:121-145 -/
def buildPlan (task : Task) : Plan :=
  let eligible := eligibleOperations task
  { taskId := task.id, subtasks := eligible.map (subtaskFor task.id eligible) }

/-! ## Ids -/

theorem subtaskIdFor_inj {taskId : String} {a b : Operation}
    (h : subtaskIdFor taskId a = subtaskIdFor taskId b) : a = b := by
  apply Operation.value_inj
  have h' := congrArg String.toList h
  simp only [subtaskIdFor, String.toList_append, List.append_cancel_left_eq] at h'
  exact String.toList_inj.mp h'

theorem operationToAgent_inj {a b : Operation} (h : operationToAgent a = operationToAgent b) : a = b := by
  cases a <;> cases b <;> first | rfl | cases h

theorem mem_buildPlan {task : Task} {sub : Subtask} :
    sub ∈ (buildPlan task).subtasks ↔
      ∃ op ∈ eligibleOperations task, sub = subtaskFor task.id (eligibleOperations task) op := by
  simp only [buildPlan, List.mem_map, eq_comm]

theorem Plan.mem_ids {p : Plan} {sid : String} : sid ∈ p.ids ↔ ∃ sub ∈ p.subtasks, sub.id = sid := by
  simp [Plan.ids]

/-- The subtasks of a plan with one id are equal. -/
theorem subtask_ext {task : Task} {s t : Subtask} (hs : s ∈ (buildPlan task).subtasks)
    (ht : t ∈ (buildPlan task).subtasks) (h : s.id = t.id) : s = t := by
  obtain ⟨a, -, rfl⟩ := mem_buildPlan.mp hs
  obtain ⟨b, -, rfl⟩ := mem_buildPlan.mp ht
  rw [subtaskIdFor_inj (show subtaskIdFor task.id a = subtaskIdFor task.id b from h)]

theorem Plan.mem_of_get? {p : Plan} {sid : String} {sub : Subtask} (h : p.get? sid = some sub) :
    sub ∈ p.subtasks ∧ sub.id = sid := by
  refine ⟨?_, by simpa using List.find?_some h⟩
  simpa using List.mem_of_find?_eq_some h

theorem get?_of_mem {task : Task} {sub : Subtask} (h : sub ∈ (buildPlan task).subtasks) :
    (buildPlan task).get? sub.id = some sub := by
  cases hg : (buildPlan task).get? sub.id with
  | none =>
    have := List.find?_eq_none.mp hg sub (by simpa using h)
    simp at this
  | some t =>
    obtain ⟨ht, he⟩ := Plan.mem_of_get? hg
    rw [subtask_ext ht h he]

/-- `plan.get` never raises on an id of the plan. -/
theorem get?_of_mem_ids {task : Task} {sid : String} (h : sid ∈ (buildPlan task).ids) :
    ∃ sub ∈ (buildPlan task).subtasks, sub.id = sid ∧ (buildPlan task).get? sid = some sub := by
  obtain ⟨sub, hs, rfl⟩ := Plan.mem_ids.mp h
  exact ⟨sub, hs, rfl, get?_of_mem hs⟩

/-! ## Dependencies -/

/-- Depth in the dependency graph. -/
def rank : Operation → Nat
  | .f1Transcribe | .f2Ocr => 0
  | .f3Summarize | .f5Terms => 1
  | .f4Test | .f6Recommend => 2

theorem rank_lt {op up : Operation} (h : up ∈ dependencyMap op) : rank up < rank op := by
  cases op <;> simp only [dependencyMap, List.mem_cons, List.not_mem_nil, or_false] at h <;>
    rcases h with rfl | rfl <;> decide

theorem mem_dependsOn {taskId : String} {eligible : List Operation} {op : Operation} {d : String} :
    d ∈ (subtaskFor taskId eligible op).dependsOn ↔
      ∃ up ∈ dependencyMap op, up ∈ eligible ∧ d = subtaskIdFor taskId up := by
  simp only [subtaskFor, dependencies, List.mem_map, List.mem_filter, decide_eq_true_eq, and_assoc]
  simp only [eq_comm]

theorem dep_mem_ids {task : Task} {sub : Subtask} (h : sub ∈ (buildPlan task).subtasks) {d : String}
    (hd : d ∈ sub.dependsOn) : d ∈ (buildPlan task).ids := by
  obtain ⟨op, -, rfl⟩ := mem_buildPlan.mp h
  obtain ⟨up, -, hup, rfl⟩ := mem_dependsOn.mp hd
  exact Plan.mem_ids.mpr ⟨_, mem_buildPlan.mpr ⟨up, hup, rfl⟩, rfl⟩

theorem rank_dep {task : Task} {s t : Subtask} (hs : s ∈ (buildPlan task).subtasks)
    (ht : t ∈ (buildPlan task).subtasks) (hd : t.id ∈ s.dependsOn) :
    rank t.operation < rank s.operation := by
  obtain ⟨a, -, rfl⟩ := mem_buildPlan.mp hs
  obtain ⟨b, -, rfl⟩ := mem_buildPlan.mp ht
  obtain ⟨up, hup, -, he⟩ := mem_dependsOn.mp hd
  rw [← subtaskIdFor_inj (show subtaskIdFor task.id b = subtaskIdFor task.id up from he)] at hup
  exact rank_lt hup

/-- **Acyclicity.** A non-empty set of plan ids has a member whose dependencies
all lie outside the set. -/
theorem exists_ready {task : Task} {S : Finset String} (hS : S ⊆ (buildPlan task).ids)
    (hne : S.Nonempty) :
    ∃ sub ∈ (buildPlan task).subtasks, sub.id ∈ S ∧ ∀ d ∈ sub.dependsOn, d ∉ S := by
  have hex : ∃ n, ∃ sub ∈ (buildPlan task).subtasks, sub.id ∈ S ∧ rank sub.operation = n := by
    obtain ⟨sid, hsid⟩ := hne
    obtain ⟨sub, hs, rfl⟩ := Plan.mem_ids.mp (hS hsid)
    exact ⟨_, sub, hs, hsid, rfl⟩
  classical
  obtain ⟨sub, hs, hmem, hr⟩ := Nat.find_spec hex
  refine ⟨sub, hs, hmem, fun d hd hdS => ?_⟩
  obtain ⟨t, ht, rfl⟩ := Plan.mem_ids.mp (hS hdS)
  have hlt := rank_dep hs ht hd
  rw [hr] at hlt
  exact Nat.find_min hex hlt ⟨t, ht, hdS, rfl⟩

/-! ## The order of the requested operations -/

theorem mem_eligible_congr {s t : Task} (hdoc : s.documents = t.documents)
    (hreq : ∀ op, op ∈ s.requestedOutputs ↔ op ∈ t.requestedOutputs) (op : Operation) :
    op ∈ eligibleOperations s ↔ op ∈ eligibleOperations t := by
  simp only [eligibleOperations, List.mem_filter, hdoc, hreq]

theorem subtaskFor_congr {taskId : String} {e e' : List Operation} (h : ∀ op, op ∈ e ↔ op ∈ e')
    (op : Operation) : subtaskFor taskId e op = subtaskFor taskId e' op := by
  simp only [subtaskFor, dependencies, h]

/-- Tasks that differ only in the order (or repetition) of the requested
operations have plans with the same subtasks. -/
theorem mem_buildPlan_congr {s t : Task} (hid : s.id = t.id) (hdoc : s.documents = t.documents)
    (hreq : ∀ op, op ∈ s.requestedOutputs ↔ op ∈ t.requestedOutputs) (sub : Subtask) :
    sub ∈ (buildPlan s).subtasks ↔ sub ∈ (buildPlan t).subtasks := by
  have he := mem_eligible_congr hdoc hreq
  simp only [mem_buildPlan, hid, he, subtaskFor_congr he]

end MasResearch.L1
