import MasResearch.L3Runs.Audit

/-!
# The artifact agrees with the results

The status, the two lists of operations, the failure statistics and the four parts of
the payload are computed by separate passes over the plan and a results map that mixes
absent ids, failures and contents. They agree however a run ends: with every subtask
resolved, at the global deadline, or straight from recovery.

`Accurate` says what an artifact owes to the state it was assembled from, and
`finalized_artifact` that every finalization of every run meets it. `Reasoned` is the
invariant behind the reported reasons: no subtask fails without one.
-/
namespace MasResearch.L3

open MasResearch.L1 MasResearch.L2 Relation TaskState

/-! ## Failures have a recorded reason -/

def Reasoned (s : TaskState) : Prop := ∀ sid, s.results.get? sid = some none → sid ∈ s.failReason

def ReasonedEvent : Event → Prop
  | .finalizing _ _ s => Reasoned s
  | _ => True

theorem reasonedEvent_of_quiet {e : Event} (hq : e.quiet = true) : ReasonedEvent e := by
  cases e <;> trivial

section

variable {env : Env} {cfg : Config} {now : ℚ}

theorem Reasoned.fail {s : TaskState} (h : Reasoned s) (sid reason : String) : Reasoned (s.fail sid reason now) := by
  intro k hk
  have := h k
  grind [TaskState.fail]

theorem Reasoned.retryOrFail {s : TaskState} (h : Reasoned s) (sid reason : String) :
    Reasoned (s.retryOrFail sid reason now) := by
  rcases Nat.lt_or_ge (s.retries sid) retryMax with hlt | hge
  · rw [retryOrFail_of_lt hlt]
    intro k hk
    have := h k hk
    grind [TaskState.scheduleRetry, TaskState.countRetry]
  · rw [retryOrFail_of_le hge]
    exact h.fail sid reason

theorem Reasoned.move {c c' : Ctx} (h : Reasoned c.state) (hm : Move env cfg now c c') : Reasoned c'.state := by
  cases hm with
  | ready => exact h
  | skip reason => exact h.fail _ reason
  | @expire sid d =>
    have hdrop : Reasoned (c.state.dropDeadline sid) := h
    exact hdrop.retryOrFail sid "timeout"
  | again => exact h

theorem Reasoned.routed {s s' : TaskState} {m : Message} {jobs : List Job} (h : Reasoned s)
    (hr : Routed env now m s jobs s') : Reasoned s' := by
  cases hr with
  | ignored => exact h
  | @refused sid =>
    have hdrop : Reasoned (s.countMessage.dropDeadline sid) := h
    exact hdrop.retryOrFail sid _
  | @informed sid sub =>
    intro k hk
    have := h k
    grind [TaskState.inform, TaskState.countMessage, TaskState.dropDeadline]

theorem taskInv_reasoned (A : Assumptions) (env : Env) (cfg : Config) :
    TaskInv A env cfg (fun s h => Reasoned s ∧ ∀ e ∈ h, ReasonedEvent e) fun h => ∀ e ∈ h, ReasonedEvent e where
  submitted task now _ := ⟨fun sid hk => by simp [TaskState.submitted] at hk, by simp⟩
  resumed task results now _ := ⟨fun sid hk => by simp [TaskState.resumed] at hk, by simp⟩
  move := by
    intro now s o c h hwf hm _
    refine ⟨h.1.move hm, ?_⟩
    cases hm with
    | ready => exact List.forall_mem_cons.mpr ⟨trivial, h.2⟩
    | skip => exact h.2
    | expire => exact h.2
    | again => exact List.forall_mem_cons.mpr ⟨trivial, h.2⟩
  routed h _ _ hr := ⟨h.1.routed hr, List.forall_mem_cons.mpr ⟨trivial, h.2⟩⟩
  finalizing _ h _ _ := ⟨h.1, List.forall_mem_cons.mpr ⟨h.1, h.2⟩⟩
  recorded h hq := ⟨h.1, List.forall_mem_cons.mpr ⟨reasonedEvent_of_quiet hq, h.2⟩⟩
  history h := h.2
  empty := by simp
  quiet h hq := List.forall_mem_cons.mpr ⟨reasonedEvent_of_quiet hq, h⟩

end

/-! ## What an artifact owes to its state -/

/-- The subtasks with a content, and those without one, in plan order. -/
def completed (s : TaskState) : List Subtask := s.plan.subtasks.filter fun t => (s.results.content? t.id).isSome

def missing (s : TaskState) : List Subtask := s.plan.subtasks.filter fun t => (s.results.content? t.id).isNone

/-- The three parts: `operations` and `degraded` split the plan; the failures and the
status are theirs; the payload shows nothing of a degraded operation. -/
structure Accurate (s : TaskState) (a : ResultArtifact) : Prop where
  operations : a.operations = (completed s).map Subtask.operation
  degraded : a.degraded = (missing s).map Subtask.operation
  split : (a.operations ++ a.degraded).Perm (s.plan.subtasks.map Subtask.operation)
  failures : a.stats.failedOperations.map (fun f => (f.op, f.reason, f.retries)) =
    (missing s).map fun t => (t.operation, s.failReason.getD t.id "no_reply", s.retries t.id)
  reasons : ∀ t ∈ missing s, t.id ∈ s.results → t.id ∈ s.failReason
  status_completed : a.status = .completed ↔ a.degraded = []
  status_failed : a.status = .failed ↔ s.plan.subtasks ≠ [] ∧ a.operations = []
  status_partial : a.status = .partialReady ↔ a.degraded ≠ [] ∧ a.operations ≠ []
  payload : Origins (· ∈ a.operations) a.result

section

variable {s : TaskState}

theorem completed_append_missing : (completed s ++ missing s).Perm s.plan.subtasks := by
  have hnot : missing s = s.plan.subtasks.filter fun t => !(s.results.content? t.id).isSome := by
    simp only [missing, Option.not_isSome]
  rw [hnot]
  exact List.filter_append_perm _ _

theorem completed_eq_nil : completed s = [] ↔ ∀ t ∈ s.plan.subtasks, (s.results.content? t.id).isNone = true := by
  simp [completed]

theorem missing_eq_nil : missing s = [] ↔ ∀ t ∈ s.plan.subtasks, (s.results.content? t.id).isSome = true := by
  simp [missing, Option.isSome_iff_ne_none]

theorem missing_failed {t : Subtask} (ht : t ∈ missing s) (hr : t.id ∈ s.results) :
    s.results.get? t.id = some none := by
  have hnone : s.results.content? t.id = none := by simpa using (List.mem_filter.mp ht).2
  obtain ⟨v, hv⟩ := Dict.exists_get? hr
  rw [content?_eq, hv] at hnone
  rw [hv, show v = none from hnone]

/-- What `assemble_artifact` returns is accurate when it is given the status
`determine_final_status` computes. -/
theorem Reasoned.accurate (h : Reasoned s) {v : Validators} {now : ℚ} {a : ResultArtifact}
    (ha : assembleArtifact v s (determineFinalStatus s.plan s.results) now = .ok a) : Accurate s a := by
  obtain ⟨payload, hp, rfl⟩ := map_ok ha
  have hcompleted : determineFinalStatus s.plan s.results = .completed ↔ missing s = [] :=
    determineFinalStatus_completed.trans missing_eq_nil.symm
  have hfailed : determineFinalStatus s.plan s.results = .failed ↔ s.plan.subtasks ≠ [] ∧ completed s = [] :=
    determineFinalStatus_failed.trans (and_congr_right' completed_eq_nil.symm)
  constructor
  case operations => rfl
  case degraded => rfl
  case split =>
    show ((completed s).map Subtask.operation ++ (missing s).map Subtask.operation).Perm _
    rw [← List.map_append]
    exact completed_append_missing.map _
  case failures =>
    show ((missing s).map (failedOperation s now)).map _ = _
    rw [List.map_map]; rfl
  case reasons => exact fun t ht hr => h t.id (missing_failed ht hr)
  case status_completed => exact hcompleted.trans List.map_eq_nil_iff.symm
  case status_failed => exact hfailed.trans (and_congr_right' List.map_eq_nil_iff.symm)
  case status_partial =>
    show determineFinalStatus s.plan s.results = .partialReady ↔
      (missing s).map Subtask.operation ≠ [] ∧ (completed s).map Subtask.operation ≠ []
    rw [ne_eq, ne_eq, List.map_eq_nil_iff, List.map_eq_nil_iff, ← hcompleted]
    have hterm := determineFinalStatus_terminal s.plan s.results
    constructor
    · intro he
      rw [he] at hfailed hcompleted ⊢
      refine ⟨by simp, fun hc => ?_⟩
      have hne : s.plan.subtasks ≠ [] := by
        intro hnil
        simp [missing, hnil] at hcompleted
      simp [hne, hc] at hfailed
    · rintro ⟨hc, ho⟩
      cases hst : determineFinalStatus s.plan s.results with
      | planning => rw [hst] at hterm; cases hterm
      | running => rw [hst] at hterm; cases hterm
      | partialReady => rfl
      | completed => exact absurd hst hc
      | failed => exact absurd (hfailed.mp hst).2 ho
  case payload =>
    refine Origins.foldlM ⟨by simp, by simp, by simp, by simp⟩ (fun t ht hs => ?_) hp
    exact List.mem_map_of_mem (List.mem_filter.mpr ⟨ht, hs⟩)

end

/-- **The artifact of a finalization.** In every run, with any replies, clock and
failures, an artifact assembled when a task is finalized is accurate. -/
theorem finalized_artifact {env : Env} {cfg : Config} {c : Coordinator} (hr : (runs .any env cfg).Reachable c)
    {tid : String} {cause : Cause} {status : TaskStatus} {s : TaskState}
    (hf : Event.finalizing cause status s ∈ (c.outside tid).history) {v : Validators} {now : ℚ}
    {a : ResultArtifact} (ha : assembleArtifact v s status now = .ok a) : Accurate s a := by
  obtain ⟨-, task, habout⟩ := (taskInv_chronicle .any env cfg).histories hr tid
  obtain ⟨-, -, hstatus⟩ := habout _ hf
  have hreason : Reasoned s := (taskInv_reasoned .any env cfg).histories hr tid _ hf
  rw [hstatus] at ha
  exact hreason.accurate ha

/-- `course`, cut off by the global deadline before its summary. -/
def cut : Coordinator :=
  [.submit course 0, .tick (.entries [{ entryId := "1-0", payload := some transcript }]) 1,
    .tick (.entries []) 11].foldl
    (next Env.faultless { globalDeadlineSec := 10 }) Coordinator.idle

theorem reachable_cut : (runs .any Env.faultless { globalDeadlineSec := 10 }).Reachable cut :=
  LTS.reachable_foldl initial_idle
    ⟨⟨⟨trivial, rfl, rfl⟩, fun _ => trivial⟩, ⟨fun _ _ _ => routable_any _ _ _ _, fun _ => trivial⟩,
      ⟨fun _ _ _ => routable_any _ _ _ _, fun _ => trivial⟩, trivial⟩

/-- The artifact has the transcript and lacks the summary. -/
def lacksSummary : Event → Bool
  | .finalizing .deadline status s => match assembleArtifact Env.faultless.validators s status 11 with
    | .ok a => a.operations = [.f1Transcribe] ∧ a.degraded = [.f3Summarize]
    | .error _ => false
  | _ => false

theorem finalized_artifact_cut : ∃ s a, Accurate s a ∧ a.operations = [.f1Transcribe] ∧
    a.degraded = [.f3Summarize] := by
  obtain ⟨e, he, hlacks⟩ := List.any_eq_true.mp
    (show (cut.outside "t1").history.any lacksSummary = true by decide +kernel)
  cases e with
  | finalizing cause status s =>
    cases cause with
    | resolved => cases hlacks
    | deadline =>
      simp only [lacksSummary] at hlacks
      cases ha : assembleArtifact Env.faultless.validators s status 11 with
      | error e => rw [ha] at hlacks; cases hlacks
      | ok a =>
        rw [ha] at hlacks
        exact ⟨s, a, finalized_artifact reachable_cut he ha, by simpa using hlacks⟩
  | _ => cases hlacks

end MasResearch.L3
