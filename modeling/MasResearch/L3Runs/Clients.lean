import MasResearch.L2Store.CreateTask
import MasResearch.L3Runs.Rows
import MasResearch.L3Runs.Startup
import MasResearch.L3Runs.System

/-!
# What a client reads (`api/routes.py`)

A client polls the row of its task. The row is written by `create_task`, by the coordinator that
has the task, by the one that resumes it after a crash, and by no call that does not have it.

`service` is the system of `L3Runs.System` with the rows `create_task` adds. A task is submitted
when its row was just added, and resumed when its row is in flight.

* `Onward.slotTick`: a tick only moves the row of a registered task on.
* `reads_final`: over any number of crashes a status never goes back, and what is once read of a
  finished task is read ever after.
-/
namespace MasResearch.L3

open MasResearch.L1 MasResearch.L2 Relation TaskState

/-! ## The endpoints -/

/-- mirrors src/api/routes.py:142-150 -/
def getTaskStatus (row : Option TaskRow) : Except HttpException TaskStatus :=
  match row with
  | none => .error ⟨404, "task not found"⟩
  | some row => .ok row.status

/-- mirrors src/api/routes.py:153-167 -/
def getTaskResult (row : Option TaskRow) : Except HttpException ResultArtifact :=
  match row with
  | none => .error ⟨404, "task not found"⟩
  | some row =>
    if row.status = .planning ∨ row.status = .running then .error ⟨425, "result not ready"⟩
    else
      match row.finalArtifact with
      | none => .error ⟨425, "result not ready"⟩
      | some artifact => .ok artifact

theorem getTaskResult_ok {r : TaskRow} {artifact : ResultArtifact} (hs : r.status.terminal = true)
    (ha : r.finalArtifact = some artifact) : getTaskResult (some r) = .ok artifact := by
  unfold getTaskResult
  dsimp only
  rw [if_neg (by rintro (h | h) <;> rw [h] at hs <;> cases hs), ha]

/-- How far a task is. -/
def progress : TaskStatus → Nat
  | .planning => 0
  | .running => 1
  | .partialReady | .completed | .failed => 2

theorem progress_le {a b : TaskStatus} (ha : a.terminal = false) (hb : b ≠ .planning) : progress a ≤ progress b := by
  cases a <;> cases b <;> first | decide | exact absurd rfl hb | cases ha

/-! ## Rows that move on -/

/-- The task is not finished. -/
def Live (row : Option TaskRow) : Prop := ∀ r ∈ row, r.status.terminal = false

/-- What a row may have become: a row that was not there, or of a task that was not finished. -/
inductive Later : Option TaskRow → Option TaskRow → Prop
  | refl (row : Option TaskRow) : Later row row
  | created (row : Option TaskRow) : Later none row
  | moved {r r' : TaskRow} (hlive : r.status.terminal = false) (hle : progress r.status ≤ progress r'.status) :
      Later (some r) (some r')

theorem Later.trans {a b c : Option TaskRow} (h : Later a b) (h' : Later b c) : Later a c := by
  cases h with
  | refl => exact h'
  | created => exact .created c
  | moved hlive hle =>
    cases h' with
    | refl => exact .moved hlive hle
    | moved _ hle' => exact .moved hlive (hle.trans hle')

/-- Where a slot may be after calls for a task whose row was `row`: a registered task is not finished. -/
structure Onward (tid : String) (row : Option TaskRow) (l : Slot) : Prop where
  keyed : KeyedState tid l.state
  later : Later row l.outside.row
  live : l.state.isSome = true → Live l.outside.row

section

variable {env : Env} {cfg : Config} {now : ℚ} {tid : String} {row : Option TaskRow} {o : Outside}

theorem Later.withStatus (h : Later row o.row) (hlive : Live o.row) {status : TaskStatus} (hs : status ≠ .planning) :
    Later row (o.withStatus status).row := by
  refine h.trans ?_
  cases hr : o.row with
  | none => exact .created _
  | some r =>
    rw [Outside.withStatus, hr]
    exact .moved (hlive r hr) (progress_le (hlive r hr) hs)

theorem Later.withArtifact (h : Later row o.row) (hlive : Live o.row) (a : ResultArtifact) :
    Later row (o.withArtifact a).row ∧ Live (o.withArtifact a).row := by
  rw [Outside.withArtifact]
  cases hr : o.row with
  | none => exact ⟨by rw [hr] at h; exact h, by rintro _ ⟨⟩⟩
  | some r =>
    rw [hr] at h
    exact ⟨h.trans (.moved (hlive r hr) le_rfl), by rintro _ ⟨⟩; exact hlive r hr⟩

/-! ## Calls -/

/-- `_finalize` of a task that is not finished: one that raises has not finished it. -/
theorem later_finalize {cause : Cause} {s : TaskState} {o' : Outside} {r : Except PyError Unit}
    (h : Later row o.row) (hlive : Live o.row) (hr : FinalizeOutcome env cause now s o r o') :
    Later row o'.row ∧ ∀ e, r = .error e → Live o'.row := by
  have hart : ∀ a : ResultArtifact, Later row ((o.finalizing cause s).withArtifact a).row ∧
      Live ((o.finalizing cause s).withArtifact a).row :=
    fun a => Later.withArtifact (o := o.finalizing cause s) h hlive a
  cases hr with
  | rejected => exact ⟨h, fun _ _ => hlive⟩
  | unsaved => exact ⟨h, fun _ _ => hlive⟩
  | @unset a => exact ⟨(hart a).1, fun _ _ => (hart a).2⟩
  | @stored a ha =>
    refine ⟨(hart a).1.withStatus (hart a).2 ?_, fun _ he => (by cases he)⟩
    have hterm : a.status.terminal = true := by
      rw [assembleArtifact_status ha]
      exact determineFinalStatus_terminal _ _
    rintro hp
    rw [hp] at hterm
    cases hterm

/-- The same of a registered task, which is gone then. -/
theorem later_finalizeRegistered (env : Env) (now : ℚ) (cause : Cause) (s : TaskState) (st : Option TaskState) (g : Int)
    (h : Later row o.row) (hlive : Live o.row) :
    ∃ r l', (finalizeRegistered env cause s now).run ⟨st, o, g⟩ = (r, l') ∧ Later row l'.outside.row ∧
      (r = .ok () → l'.state = none) ∧ ∀ e, r = .error e → Live l'.outside.row := by
  obtain ⟨r, o', h1, ho⟩ := run_finalize_outcome env cause now s o
  obtain ⟨hlater, herr⟩ := later_finalize h hlive ho
  simp only [finalizeRegistered, Exec.run_bind, run_onState h1]
  cases r with
  | ok _ => exact ⟨_, _, rfl, hlater, fun _ => rfl, fun _ he => (by cases he)⟩
  | error e => exact ⟨_, _, rfl, hlater, fun he => (by cases he), fun _ _ => herr e rfl⟩

/-- The `try` block of `_tick`. -/
theorem later_dispatchTask (env : Env) (cfg : Config) (now : ℚ) {s : TaskState} (hw : s.Wf) (g : Int)
    (h : Later row o.row) (hlive : Live o.row) :
    ∃ r l', (dispatchTask env cfg now).run ⟨some s, o, g⟩ = (r, l') ∧ Later row l'.outside.row ∧
      (r = .ok () → l'.state.isSome = true → Live l'.outside.row) ∧ ∀ e, r = .error e → Live l'.outside.row := by
  have hadv := row_of_silent (silent_advance env cfg now hw o)
  generalize h1 : (advance env cfg now).run ⟨s, o⟩ = r at hadv
  obtain ⟨r, c⟩ := r
  have hrow : c.outside.row = o.row := hadv
  rw [← hrow] at h hlive
  simp only [dispatchTask, Exec.run_bind, Exec.run_get, run_onState h1]
  cases r with
  | error e => exact ⟨_, _, rfl, h, fun he => (by cases he), fun _ _ => hlive⟩
  | ok _ =>
    dsimp only
    rw [run_maybeFinalize]
    by_cases hp : c.state.pending = ∅
    · rw [if_pos hp]
      obtain ⟨r, l', h2, hlater, hok, herr⟩ :=
        later_finalizeRegistered env now .resolved c.state (some c.state) g h hlive
      rw [h2]
      cases r with
      | error e => exact ⟨_, _, rfl, hlater, fun he => (by cases he), herr⟩
      | ok _ =>
        have hn := hok rfl
        simp only [hn]
        exact ⟨_, _, rfl, hlater, fun _ hs => (by rw [hn] at hs; cases hs), fun _ he => (by cases he)⟩
    rw [if_neg hp]
    dsimp only
    by_cases hd : cfg.globalDeadlineSec < now - c.state.startedAt
    · rw [if_pos hd, deadlineFinalize]
      obtain ⟨r, l', h2, hlater, hok, herr⟩ :=
        later_finalizeRegistered env now .deadline c.state (some c.state) g h hlive
      exact ⟨r, l', h2, hlater, fun he hs => (by rw [hok he] at hs; cases hs), herr⟩
    · rw [if_neg hd]
      exact ⟨_, _, rfl, h, fun _ _ => hlive, fun _ he => (by cases he)⟩

theorem outside_abandon (env : Env) (l : Slot) :
    ((abandon env).run l).2.outside = ((setStatus env .failed).run l.outside).2 := by
  obtain ⟨st, o, g⟩ := l
  generalize hr : (setStatus env .failed).run o = r
  obtain ⟨r, o'⟩ := r
  cases st <;> cases r <;> simp [abandon, storeCall, Slot.pop, Exec.run_bind, Exec.run_attempt, hr]

/-- One round of the loop of `_tick`; a task that raised is marked as failed. -/
theorem onward_processTask : Exec.Maintains (Onward tid row) (processTask env cfg now) := by
  intro l h
  obtain ⟨l', hrun, -, hk, -⟩ := run_processTask env cfg now h.keyed
  obtain ⟨st, o, g⟩ := l
  cases st with
  | none => exact h
  | some s =>
    obtain ⟨r, l₁, h1, hlater, hok, herr⟩ :=
      later_dispatchTask env cfg now (h.keyed s rfl).1 g h.later (h.live rfl)
    rw [hrun]
    suffices hl : Later row l'.outside.row ∧ (l'.state.isSome = true → Live l'.outside.row) from ⟨hk, hl.1, hl.2⟩
    rw [processTask, Exec.run_attempt, h1] at hrun
    cases r with
    | ok _ => cases hrun; exact ⟨hlater, hok rfl⟩
    | error e =>
      obtain ⟨o₂, h2, -⟩ := run_abandon env l₁.state l₁.outside l₁.inflight
      have hout := outside_abandon env l₁
      have hrun : (abandon env).run l₁ = (.ok (), l') := hrun
      rw [hrun] at hout
      rw [show (abandon env).run l₁ = _ from h2] at hrun
      cases hrun
      refine ⟨?_, fun hs => by cases hs⟩
      rw [show o₂ = _ from hout]
      rcases run_setStatus env .failed l₁.outside with ⟨e', h3, -⟩ | ⟨h3, -⟩
      · rw [h3]; exact hlater
      · rw [h3]; exact hlater.withStatus (herr e rfl) (by decide)

theorem onward_slotRoutes : ∀ replies : List Message,
    Exec.Maintains (Onward tid row) (slotRoutes env now replies)
  | [] => Exec.Maintains.pure _
  | reply :: replies => by
    refine Exec.Maintains.bind (fun l h => ?_) fun _ =>
      (onward_slotRoutes replies).bind fun _ => Exec.Maintains.pure _
    obtain ⟨jobs, l', h1, -, hk, -, hc⟩ := run_routeTo env now h.keyed reply
    rw [h1]
    rcases hc with ⟨-, rfl⟩ | ⟨s, s', hs, -, ho, -⟩
    · exact h
    · refine ⟨hk, ?_, fun _ => ?_⟩ <;> rw [ho]
      · exact h.later
      · exact h.live (by rw [hs]; rfl)

theorem onward_persistResult (job : Job) : Exec.Maintains (Onward tid row) (persistResult env job) := by
  intro l h
  obtain ⟨st, o, g⟩ := l
  have hrow := row_of_silent (silent_persistResult env job st o g)
  obtain ⟨o', -, h1⟩ := run_persistResult env job o
  rw [h1] at hrow ⊢
  have hrow : o'.row = o.row := hrow
  exact ⟨h.keyed, by rw [hrow]; exact h.later, fun hs => by rw [hrow]; exact h.live hs⟩

/-- **A tick** moves the row of a registered task on. -/
theorem Onward.slotTick (env : Env) (cfg : Config) (now : ℚ) (replies : List Message) :
    Exec.Maintains (Onward tid row) (slotTick env cfg replies now) :=
  (onward_slotRoutes replies).bind fun _ => onward_processTask.bind fun _ =>
    Exec.Maintains.forEach fun job _ => onward_persistResult job

/-- Registration of a task that is not finished: its first `_advance` leaves every subtask pending. -/
theorem onward_enrol (env : Env) (cfg : Config) {s : TaskState} (hu : Unspent s) (who : Registrar)
    (hdue : NothingDue now s) (h : Later row o.row) (hlive : Live o.row) :
    Onward s.task.id row ((enrol env cfg who s now).run ⟨none, o, 0⟩).2 := by
  have hk := (balanced_enrol env cfg hu.wf hdue who o 0).1
  suffices hl : Later row ((enrol env cfg who s now).run ⟨none, o, 0⟩).2.outside.row ∧
      (((enrol env cfg who s now).run ⟨none, o, 0⟩).2.state.isSome = true →
        Live ((enrol env cfg who s now).run ⟨none, o, 0⟩).2.outside.row) from ⟨hk, hl.1, hl.2⟩
  by_cases hp : s.pending = ∅
  · obtain ⟨r, o', h1, ho⟩ := run_enrol_done env cfg now who hp none o 0
    rw [h1]
    exact ⟨(later_finalize h hlive ho).1, fun hs => by cases hs⟩
  · have hadv := row_of_silent (silent_advance env cfg now hu.wf (o.note (.registered who)))
    rw [Outside.note_row] at hadv
    simp only [enrol, if_neg hp, Exec.run_bind, Exec.run_modify, Slot.register]
    rcases run_advance_first env cfg now hu (o.note (.registered who)) with ⟨-, c', h1⟩ | ⟨hist, s', -, h1, hs⟩
    · rw [h1] at hadv
      have hadv : c'.outside.row = o.row := hadv
      rw [run_onState h1]
      dsimp only
      rw [hadv]
      exact ⟨h, fun _ => hlive⟩
    · rw [run_onState h1]
      dsimp only
      rw [run_maybeFinalize, if_neg (by rw [hs.pending]; exact hp)]
      exact ⟨h, fun _ => hlive⟩

theorem onward_submit (env : Env) (cfg : Config) (now : ℚ) (task : Task) (h : Later row o.row) (hlive : Live o.row) :
    Onward task.id row ((submit env cfg task now).run ⟨none, o, 0⟩).2 := by
  have hst : (storeCall (setStatus env .running)).run ⟨none, o, 0⟩ =
      (((setStatus env .running).run o).1, ⟨none, ((setStatus env .running).run o).2, 0⟩) := rfl
  rcases run_setStatus env .running o with ⟨e, h1, -⟩ | ⟨h1, -, -⟩
  · rw [h1] at hst
    rw [submit, Exec.run_bind_error hst]
    exact ⟨keyed_none _, h, fun hs => by cases hs⟩
  · rw [h1] at hst
    rw [submit, Exec.run_bind_ok hst]
    have hrunning : Live (o.withStatus .running).row := by
      intro r hr
      obtain ⟨r', -, rfl⟩ := Option.map_eq_some_iff.mp (show o.row.map _ = some r from hr)
      rfl
    exact onward_enrol env cfg (unspent_submitted task now) .submit (nothingDue_submitted task now)
      (h.withStatus hlive (by decide)) hrunning

theorem onward_resume (env : Env) (cfg : Config) (now : ℚ) (task : Task) (results : Dict String Content)
    (h : Later row o.row) (hlive : Live o.row) :
    Onward task.id row ((resume env cfg task results now).run ⟨none, o, 0⟩).2 :=
  onward_enrol env cfg (o := o.note .recovered) (unspent_resumed task results now) .recovery
    (nothingDue_resumed task results now) h hlive

end

/-! ## The service -/

/-- A transition of the system, or the transaction of `create_task`. -/
inductive Service where
  | create (task : Task)
  | system (label : Label)

namespace Service

/-- The rows that a coordinator may start a task from: `create_task` submits what it has just added,
recovery resumes what it found in flight. -/
def Startable (c : Coordinator) : Label → Prop
  | .coordinator (.submit task _) => ∃ r, (c.outside task.id).row = some r ∧ r.status = .planning
  | .coordinator (.resume task _ _) => InFlight c task.id
  | .coordinator (.tick ..) | .agent .. | .restart _ | .crash => True

def Enabled (informs : Informs) (inputs : Inputs) (env : Env) (s : System) : Service → Prop
  | .create task => Fresh s.coordinator task.id ∧ (s.coordinator.outside task.id).row = none
  | .system label => s.Enabled informs inputs env label ∧ Startable s.coordinator label

def next (env : Env) (cfg : Config) (s : System) : Service → System
  | .create task => { s with coordinator := Startup.commitRow s.coordinator task }
  | .system label => s.next env cfg label

end Service

def service (informs : Informs) (inputs : Inputs) (env : Env) (cfg : Config) : LTS System Service :=
  LTS.guarded System.Start (Service.Enabled informs inputs env) (Service.next env cfg)

/-- A registered task is not finished. -/
def Unfinished (c : Coordinator) : Prop := Keyed c ∧ ∀ tid s, c.tasks.get? tid = some s → Live (c.outside tid).row

section

variable {informs : Informs} {inputs : Inputs} {env : Env} {cfg : Config}

/-- The rows and the registered tasks after a transition of the coordinator. -/
theorem onward_next (cfg : Config) {c : Coordinator} (h : Unfinished c) {a : Action}
    (ha : (Assumptions.loading inputs).allows env c a) (hs : Service.Startable c (.coordinator a)) (tid : String) :
    Onward tid (c.outside tid).row ((next env cfg c a).slot tid) := by
  have hsame : Onward tid (c.outside tid).row (c.slot tid) :=
    ⟨h.1 tid, .refl _, fun hreg => by
      obtain ⟨s, hs⟩ := Option.isSome_iff_exists.mp hreg
      exact h.2 tid s hs⟩
  cases a with
  | submit task now =>
    rw [next_submit env cfg ha.2]
    by_cases ht : tid = task.id
    · subst ht
      obtain ⟨r, hr, hplanning⟩ := hs
      have hlive : Live (c.outside task.id).row := by
        rw [hr]
        rintro _ ⟨⟩
        rw [hplanning]
        rfl
      rw [slot_putSlot_self]
      have hon := onward_submit env cfg now task (.refl _) hlive
      exact ⟨hon.keyed, hon.later, hon.live⟩
    · rw [slot_putSlot_ne ht]; exact hsame
  | resume task results now =>
    rw [next_resume env cfg ha.2]
    by_cases ht : tid = task.id
    · subst ht
      obtain ⟨r, hr, hflight⟩ := hs
      have hlive : Live (c.outside task.id).row := by
        rw [hr]
        rintro _ ⟨⟩
        simp only [recoverableStatuses, List.mem_cons, List.not_mem_nil, or_false] at hflight
        rcases hflight with hflight | hflight <;> rw [hflight] <;> rfl
      rw [slot_putSlot_self]
      have hon := onward_resume env cfg now task results (.refl _) hlive
      exact ⟨hon.keyed, hon.later, hon.live⟩
    · rw [slot_putSlot_ne ht]; exact hsame
  | tick batch now =>
    rw [next, Action.coroutine]
    rcases tick_cases env cfg now batch c h.1 with ⟨e, m, -, hrun⟩ | ⟨replies, m, c', -, hrun, -, hslot⟩
    · rw [hrun]; exact hsame
    · have hon := Onward.slotTick env cfg now (replies.filter fun r => r.taskId = tid) _ hsame
      rw [hrun, hslot tid]
      exact ⟨hon.keyed, hon.later, hon.live⟩

/-- **One transition** of the service moves every row on, and keeps registered tasks unfinished. -/
theorem unfinished_step (cfg : Config) {s : System} (h : Unfinished s.coordinator) {l : Service}
    (he : l.Enabled informs inputs env s) :
    Unfinished (l.next env cfg s).coordinator ∧
      ∀ tid, Later (s.coordinator.outside tid).row ((l.next env cfg s).coordinator.outside tid).row := by
  have hquiet : Unfinished s.coordinator ∧
      ∀ tid, Later (s.coordinator.outside tid).row (s.coordinator.outside tid).row := ⟨h, fun _ => .refl _⟩
  cases l with
  | create task =>
    obtain ⟨hfresh, hnone⟩ := he
    have hother : ∀ tid ≠ task.id,
        (Startup.commitRow s.coordinator task).outside tid = s.coordinator.outside tid :=
      fun tid ht => Function.update_of_ne ht _ _
    refine ⟨⟨h.1, fun tid st hst => ?_⟩, fun tid => ?_⟩
    · have hst : s.coordinator.tasks.get? tid = some st := hst
      have ht : tid ≠ task.id := by
        rintro rfl
        rw [hfresh.1] at hst
        cases hst
      show Live ((Startup.commitRow s.coordinator task).outside tid).row
      rw [hother tid ht]
      exact h.2 tid st hst
    · show Later _ ((Startup.commitRow s.coordinator task).outside tid).row
      by_cases ht : tid = task.id
      · subst ht; rw [hnone]; exact .created _
      · rw [hother tid ht]; exact .refl _
  | system label =>
    cases label with
    | coordinator a =>
      have hon := fun tid => onward_next cfg h he.1.1 he.2 tid
      exact ⟨⟨fun tid => (hon tid).keyed, fun tid st hst => (hon tid).live (by
        show ((next env cfg s.coordinator a).tasks.get? tid).isSome = true
        rw [show (next env cfg s.coordinator a).tasks.get? tid = some st from hst]; rfl)⟩, fun tid => (hon tid).later⟩
    | agent who arrival => exact hquiet
    | restart who => exact hquiet
    | crash =>
      refine ⟨⟨fun tid => keyed_none tid, fun tid st hst => ?_⟩, fun _ => .refl _⟩
      cases hst

theorem unfinished_inductive (informs : Informs) (inputs : Inputs) (env : Env) (cfg : Config) :
    (service informs inputs env cfg).Inductive fun s => Unfinished s.coordinator where
  init s h := ⟨fun tid => by rw [(h.1 tid).1]; exact keyed_none tid, fun tid st hst => by
    rw [(h.1 tid).1] at hst; cases hst⟩
  step s l s' h hs := by
    obtain ⟨he, rfl⟩ := hs
    exact (unfinished_step cfg h he).1

theorem later_run {s s' : System} {ls : List Service} (hr : (service informs inputs env cfg).Run s ls s') :
    Unfinished s.coordinator → ∀ tid, Later (s.coordinator.outside tid).row (s'.coordinator.outside tid).row := by
  induction hr with
  | nil => exact fun _ _ => .refl _
  | cons hs _ ih =>
    intro h tid
    obtain ⟨he, rfl⟩ := hs
    obtain ⟨h', hlater⟩ := unfinished_step cfg h he
    exact (hlater tid).trans (ih h' tid)

/-- **What a client reads is final.** Between any two moments of any run, with any failures of the
store and the bus and any number of crashes in between, the status of a task does not go back and
its row does not vanish; and whatever a client got of a finished task, result or error, it gets
again. -/
theorem reads_final {s s' : System} (hr : (service informs inputs env cfg).Reachable s) {ls : List Service}
    (hrun : (service informs inputs env cfg).Run s ls s') (tid : String) {status : TaskStatus}
    (hstatus : getTaskStatus (s.coordinator.outside tid).row = .ok status) :
    ∃ status', getTaskStatus (s'.coordinator.outside tid).row = .ok status' ∧ progress status ≤ progress status' ∧
      (status.terminal = true → status' = status ∧
        getTaskResult (s'.coordinator.outside tid).row = getTaskResult (s.coordinator.outside tid).row) := by
  have hlater := later_run hrun ((unfinished_inductive informs inputs env cfg).reachable s hr) tid
  generalize (s.coordinator.outside tid).row = row at hlater hstatus
  generalize (s'.coordinator.outside tid).row = row' at hlater
  cases hlater with
  | refl => exact ⟨status, hstatus, le_rfl, fun _ => ⟨rfl, rfl⟩⟩
  | created => cases hstatus
  | @moved r r' hlive hle =>
    cases hstatus
    exact ⟨r'.status, rfl, hle, fun ht => by rw [hlive] at ht; cases ht⟩

theorem reachable_served :
    (service (fun _ _ _ => True) {} Env.faultless {}).Reachable (lectureOver Env.faultless []) := by
  have hready : LTS.Admits (System.Ready (fun _ _ _ => True) Env.faultless lecture) (System.next Env.faultless {})
      System.idle (lectureRun Env.faultless []) := ready_lecture played_faultless trivial
  obtain ⟨hsubmit, hanswer, hhear, -⟩ := hready
  have hasked : (service (fun _ _ _ => True) {} Env.faultless {}).Reachable (lectureAsked Env.faultless) :=
    LTS.Reachable.step (l := .system (.coordinator (.submit lecture 0))) ⟨_, [], start_idle, .nil _⟩
      ⟨⟨hsubmit {} trivial, _, rfl, rfl⟩, rfl⟩
  have hanswered : (service (fun _ _ _ => True) {} Env.faultless {}).Reachable (lectureAnswered Env.faultless []) :=
    hasked.step (l := .system _) ⟨⟨hanswer {} trivial, trivial⟩, rfl⟩
  exact hanswered.step (l := .system _) ⟨⟨hhear {} trivial, trivial⟩, rfl⟩

/-- What a client has read of the lecture, it reads after a crash. -/
theorem reads_final_lecture : ∃ artifact,
    getTaskResult ((lectureOver Env.faultless []).coordinator.outside "t1").row = .ok artifact ∧
    getTaskResult (((lectureOver Env.faultless []).next Env.faultless {} .crash).coordinator.outside "t1").row =
      .ok artifact := by
  have hrow : ((lectureOver Env.faultless []).coordinator.outside "t1").row.any
      (fun r => r.status = .completed ∧ r.finalArtifact.isSome) = true := by decide +kernel
  obtain ⟨r, hr, hdone⟩ := (Option.any_eq_true _ _).mp hrow
  obtain ⟨hstatus, hsome⟩ : r.status = .completed ∧ r.finalArtifact.isSome = true := by simpa using hdone
  obtain ⟨artifact, hart⟩ := Option.isSome_iff_exists.mp hsome
  have hres : getTaskResult (some r) = .ok artifact := getTaskResult_ok (by rw [hstatus]; rfl) hart
  have hcrash : (service (fun _ _ _ => True) {} Env.faultless {}).Run (lectureOver Env.faultless []) [.system .crash]
      ((lectureOver Env.faultless []).next Env.faultless {} .crash) :=
    .cons ⟨show System.Enabled _ _ _ _ _ ∧ Service.Startable _ _ from ⟨trivial, trivial⟩, rfl⟩ (.nil _)
  have hread : getTaskStatus ((lectureOver Env.faultless []).coordinator.outside "t1").row = .ok .completed := by
    rw [hr, getTaskStatus, hstatus]
  obtain ⟨_, -, -, hfinal⟩ := reads_final reachable_served hcrash "t1" hread
  rw [← hr] at hres
  exact ⟨artifact, hres, (hfinal rfl).2.trans hres⟩

end

end MasResearch.L3
