import MasResearch.L2Dispatch.Dispatch
import MasResearch.L2Dispatch.Inbox

/-!
# The coordinator (`agents/coordinator.py`)

A `Slot` is what the coordinator keeps about one task: its entry in `_tasks`, its
part of the world, and what the running call has added to `INFLIGHT_TASKS`. The
methods that take a task id work on its slot; `forTask` runs them on the
coordinator. `submit`, `_resume` and `_tick` hold the lock while they touch
`_tasks`, so each is one transition. The read loop of a tick runs before the
lock is taken and touches the mailbox only.
-/
namespace MasResearch.L2

open MasResearch.L1

structure Slot where
  state : Option TaskState
  outside : Outside
  inflight : Int := 0

abbrev SlotM := Exec Slot PyError

/-- `self._tasks.pop(task_id); INFLIGHT_TASKS.dec()`. -/
def Slot.pop (l : Slot) : Slot := { l with state := none, inflight := l.inflight - 1 }

/-- `self._tasks[task.id] = state; INFLIGHT_TASKS.inc()`. -/
def Slot.register (who : Registrar) (state : TaskState) (l : Slot) : Slot :=
  ⟨some state, l.outside.note (.registered who), l.inflight + 1⟩

def Slot.note (l : Slot) (e : Event) : Slot := { l with outside := l.outside.note e }

/-- A store call made for the task. -/
def storeCall (x : Exec Outside PyError Unit) : SlotM Unit :=
  Exec.zoom Slot.outside (fun l o => { l with outside := o }) x

/-- `x` on the registered `state`, which `_tasks` shares. -/
def onState {α : Type} (state : TaskState) (x : Dispatch α) : SlotM α :=
  Exec.zoom (fun l => ⟨state, l.outside⟩) (fun l c => { l with state := some c.state, outside := c.outside }) x

/-- `x` on a `state` that was never registered. -/
def onDetached {α : Type} (state : TaskState) (x : Dispatch α) : SlotM α :=
  Exec.zoom (fun l => ⟨state, l.outside⟩) (fun l c => { l with outside := c.outside }) x

/-- mirrors src/agents/coordinator.py:363-365 -/
def finalizeRegistered (env : Env) (cause : Cause) (state : TaskState) (now : ℚ) : SlotM Unit := do
  onState state (finalize env cause now)
  Exec.modify Slot.pop

/-- mirrors src/agents/coordinator.py:345-350 -/
def maybeFinalize (env : Env) (now : ℚ) : SlotM Unit := do
  let l ← Exec.get
  match l.state with
  | none => pure ()
  | some state => if state.pending = ∅ then finalizeRegistered env .resolved state now else pure ()

/-- mirrors src/agents/coordinator.py:352-365 -/
def deadlineFinalize (env : Env) (state : TaskState) (now : ℚ) : SlotM Unit :=
  finalizeRegistered env .deadline state now

/-- mirrors src/agents/coordinator.py:367-379 -/
def abandon (env : Env) : SlotM Unit := do
  let l ← Exec.get
  if l.state.isSome then Exec.modify Slot.pop
  Exec.attempt (storeCall (setStatus env .failed)) fun _ => pure ()

/-- The `try` block of `_tick`.
mirrors src/agents/coordinator.py:198-204 -/
def dispatchTask (env : Env) (cfg : Config) (now : ℚ) : SlotM Unit := do
  let l ← Exec.get
  match l.state with
  | none => pure ()
  | some state =>
    onState state (advance env cfg now)
    maybeFinalize env now
    let l ← Exec.get
    match l.state with
    | none => pure ()
    | some state =>
      if cfg.globalDeadlineSec < now - state.startedAt then deadlineFinalize env state now
      else pure ()

/-- One round of the loop over `list(self._tasks)`.
mirrors src/agents/coordinator.py:194-207 -/
def processTask (env : Env) (cfg : Config) (now : ℚ) : SlotM Unit :=
  Exec.attempt (dispatchTask env cfg now) fun _ => abandon env

/-- What `submit` and `_resume` do with the `TaskState` they built.
mirrors src/agents/coordinator.py:136-142,170-176 -/
def enrol (env : Env) (cfg : Config) (who : Registrar) (state : TaskState) (now : ℚ) : SlotM Unit :=
  if state.pending = ∅ then onDetached state (finalize env .resolved now)
  else do
    Exec.modify (Slot.register who state)
    onState state (advance env cfg now)
    maybeFinalize env now

/-- mirrors src/agents/coordinator.py:124-142 -/
def submit (env : Env) (cfg : Config) (task : Task) (now : ℚ) : SlotM Unit := do
  storeCall (setStatus env .running)
  enrol env cfg .submit (TaskState.submitted task now) now

/-- mirrors src/agents/coordinator.py:154-176 -/
def resume (env : Env) (cfg : Config) (task : Task) (results : Dict String Content) (now : ℚ) :
    SlotM Unit := do
  Exec.modify (·.note .recovered)
  enrol env cfg .recovery (TaskState.resumed task results now) now

/-- `state = self._tasks.get(reply.task_id)`, then `_route_reply`.
mirrors src/agents/coordinator.py:190-192 -/
def routeTo (env : Env) (reply : Message) (now : ℚ) : SlotM (List Job) := do
  let l ← Exec.get
  match l.state with
  | none => pure []
  | some state =>
    Exec.modify (·.note (.routed reply))
    onState state (routeReply env reply now)

/-- `_PERSIST_RETRIES`. -/
def persistRetries : Nat := 3

/-- Up to `n` calls of `save_result`; never raises.
mirrors src/agents/coordinator.py:243-259 -/
def persistAttempts (env : Env) (operation : Operation) (content : Content) : Nat → SlotM Unit
  | 0 => pure ()
  | n + 1 => Exec.attempt (storeCall (saveResult env operation content)) fun _ =>
      persistAttempts env operation content n

def persistResult (env : Env) (job : Job) : SlotM Unit :=
  persistAttempts env job.operation job.content persistRetries

/-! ## All tasks -/

structure Coordinator where
  tasks : Dict String TaskState
  mailbox : Mailbox
  outside : String → Outside
  inflight : Int

namespace Coordinator

/-- The slot of a task at the start of a call. -/
def slot (c : Coordinator) (tid : String) : Slot := ⟨c.tasks.get? tid, c.outside tid, 0⟩

def putSlot (c : Coordinator) (tid : String) (l : Slot) : Coordinator where
  tasks := match l.state with
    | some state => c.tasks.set tid state
    | none => c.tasks.erase tid
  mailbox := c.mailbox
  outside := Function.update c.outside tid l.outside
  inflight := c.inflight + l.inflight

end Coordinator

abbrev CoordinatorM := Exec Coordinator PyError

def forTask {α : Type} (tid : String) (x : SlotM α) : CoordinatorM α :=
  Exec.zoom (·.slot tid) (·.putSlot tid) x

def onMailbox {α : Type} (x : Exec Mailbox PyError α) : CoordinatorM α :=
  Exec.zoom Coordinator.mailbox (fun c m => { c with mailbox := m }) x

/-- `for reply in replies: ...`; returns `persist_jobs`. -/
def routeAll (env : Env) (now : ℚ) : List Message → CoordinatorM (List Job)
  | [] => pure []
  | reply :: replies => do
    let jobs ← forTask reply.taskId (routeTo env reply now)
    let more ← routeAll env now replies
    pure (jobs ++ more)

/-- `for task_id in list(self._tasks): ...`. -/
def processAll (env : Env) (cfg : Config) (now : ℚ) : CoordinatorM Unit := do
  let c ← Exec.get
  Exec.forEach c.tasks.keys fun tid => forTask tid (processTask env cfg now)

/-- mirrors src/agents/coordinator.py:178-215 -/
def tick (env : Env) (cfg : Config) (batch : Batch) (now : ℚ) : CoordinatorM Unit := do
  let replies ← onMailbox (readInbox batch)
  let jobs ← routeAll env now replies
  processAll env cfg now
  Exec.forEach jobs fun job => forTask job.taskId (persistResult env job)

/-- mirrors src/agents/recovery.py:44-49 -/
structure RecoveredTask where
  task : Task
  results : Dict String Content

/-- The body of `_recover` under the lock.
mirrors src/agents/coordinator.py:144-152 -/
def recover (env : Env) (cfg : Config) (recovered : List RecoveredTask) (now : ℚ) : CoordinatorM Unit :=
  Exec.forEach recovered fun item => forTask item.task.id (resume env cfg item.task item.results now)

/-- Recovery, then the loop, which outlives a tick that raises; `rounds` holds the
batch and the clock reading of each tick until the shutdown.
mirrors src/agents/coordinator.py:110-122 -/
def Coordinator.run (env : Env) (cfg : Config) (recovered : List RecoveredTask) (now : ℚ)
    (rounds : List (Batch × ℚ)) : CoordinatorM Unit := do
  recover env cfg recovered now
  Exec.forEach rounds fun round => Exec.attempt (tick env cfg round.1 round.2) fun _ => pure ()

end MasResearch.L2
