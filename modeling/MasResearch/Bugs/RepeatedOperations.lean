import MasResearch.L1Domain.DagEquations
import MasResearch.L2Store.CreateTask

/-!
# An operation requested twice has two subtasks with one id

`create_task` takes the operations of the form as they come (src/api/routes.py:84-87), and
`build_plan` makes a subtask for each (src/plan.py:132-144). The id of a subtask is made of
the task and the operation, and `Plan.get` and all maps of the dispatcher are keyed by it;
tests/unit/test_plan_properties.py:105-109 asks for distinct ids, of a list without
repetitions.

Counterexample: a recording uploaded with F3 named twice.

* `proper_iff`: the plan is as it should be exactly if each operation that is requested
  and has a document to work on is requested once. Only the ids go wrong otherwise.
-/
namespace MasResearch.Bugs.RepeatedOperations

open MasResearch.L1 MasResearch.L2 Relation

/-- The task has the kind of document an ingestion operation needs. -/
def Available (task : Task) (op : Operation) : Prop :=
  (op = .f1Transcribe → ∃ d ∈ task.documents, d.documentType = .audio) ∧
    (op = .f2Ocr → ∃ d ∈ task.documents, d.documentType = .pdf ∨ d.documentType = .image)

/-- What a plan should be. -/
structure Proper (task : Task) : Prop where
  ids : ((buildPlan task).subtasks.map Subtask.id).Nodup
  operations : ∀ op, (∃ sub ∈ (buildPlan task).subtasks, sub.operation = op) ↔
    op ∈ task.requestedOutputs ∧ Available task op
  closed : ∀ sub ∈ (buildPlan task).subtasks, ∀ dep ∈ sub.dependsOn,
    ∃ other ∈ (buildPlan task).subtasks, other.id = dep ∧ other.id ≠ sub.id
  acyclic : ∀ sid, ¬ TransGen (DependsOn task) sid sid

/-! ## The operations of a plan -/

theorem eligibleOperations_eq (task : Task) [DecidablePred (Available task)] :
    eligibleOperations task = task.requestedOutputs.filter fun op => Available task op := by
  unfold eligibleOperations
  refine List.filter_congr fun op _ => decide_eq_decide.mpr ?_
  simp only [Available, List.any_eq_true, decide_eq_true_eq, not_and, not_not]

theorem mem_eligible {task : Task} {op : Operation} :
    op ∈ eligibleOperations task ↔ op ∈ task.requestedOutputs ∧ Available task op := by
  classical
  rw [eligibleOperations_eq, List.mem_filter, decide_eq_true_eq]

theorem planned_iff {task : Task} {op : Operation} :
    (∃ sub ∈ (buildPlan task).subtasks, sub.operation = op) ↔ op ∈ task.requestedOutputs ∧ Available task op := by
  rw [← mem_eligible]
  constructor
  · rintro ⟨sub, hsub, rfl⟩
    obtain ⟨op, hop, rfl⟩ := mem_buildPlan.mp hsub
    exact hop
  · intro hop
    exact ⟨_, mem_buildPlan.mpr ⟨op, hop, rfl⟩, rfl⟩

theorem ids_nodup_iff (task : Task) :
    ((buildPlan task).subtasks.map Subtask.id).Nodup ↔
      ∀ op ∈ task.requestedOutputs, Available task op → task.requestedOutputs.count op = 1 := by
  classical
  have hids : (buildPlan task).subtasks.map Subtask.id = (eligibleOperations task).map (subtaskIdFor task.id) := by
    rw [buildPlan, List.map_map]
    rfl
  have hcount : ∀ {op}, Available task op →
      (eligibleOperations task).count op = task.requestedOutputs.count op := fun hav => by
    rw [eligibleOperations_eq]
    exact List.count_filter (decide_eq_true hav)
  rw [hids, List.nodup_map_iff fun _ _ => subtaskIdFor_inj, List.nodup_iff_count_eq_one]
  constructor
  · intro h op hreq hav
    rw [← hcount hav]
    exact h op (mem_eligible.mpr ⟨hreq, hav⟩)
  · intro h op hop
    obtain ⟨hreq, hav⟩ := mem_eligible.mp hop
    rw [hcount hav]
    exact h op hreq hav

/-! ## Dependencies -/

theorem closed (task : Task) : ∀ sub ∈ (buildPlan task).subtasks, ∀ dep ∈ sub.dependsOn,
    ∃ other ∈ (buildPlan task).subtasks, other.id = dep ∧ other.id ≠ sub.id := by
  intro sub hsub dep hdep
  obtain ⟨other, hother, rfl⟩ := Plan.mem_ids.mp (dep_mem_ids hsub hdep)
  refine ⟨other, hother, rfl, fun he => ?_⟩
  have hlt := rank_dep hsub hother hdep
  rw [subtask_ext hother hsub he] at hlt
  exact lt_irrefl _ hlt

theorem acyclic (task : Task) (sid : String) : ¬ TransGen (DependsOn task) sid sid := by
  have hlt : ∀ {a b}, TransGen (DependsOn task) a b → rankOf task a < rankOf task b := fun h => by
    induction h with
    | single h => exact rankOf_lt h
    | tail _ h ih => exact ih.trans (rankOf_lt h)
  exact fun h => lt_irrefl _ (hlt h)

/-- **When a plan is proper.** -/
theorem proper_iff (task : Task) :
    Proper task ↔ ∀ op ∈ task.requestedOutputs, Available task op → task.requestedOutputs.count op = 1 := by
  rw [← ids_nodup_iff]
  exact ⟨Proper.ids, fun h => ⟨h, fun _ => planned_iff, closed task, acyclic task⟩⟩

/-! ## The counterexample -/

/-- Files are stored under their index; the names in the form are lower-case. -/
def server : Server where
  lower := id
  repr _ := ""
  unprocessable _ := ""
  save taskId _ index := .ok (numbered ("data/uploads/" ++ taskId ++ "/") index)

/-- **Counterexample**: F3 named twice. -/
theorem summary_twice : ∃ task,
    createTask server "task-1a2b3c4d" [⟨some "lecture.mp3", some "audio/mpeg"⟩] ["F1", "F3", "F3"] = .ok task ∧
      ¬ Proper task := by
  refine ⟨_, rfl, fun h => ?_⟩
  have hids := h.ids
  revert hids
  decide

end MasResearch.Bugs.RepeatedOperations
