import MasResearch.Core.Exec
import MasResearch.L2Dispatch.Assembly

/-!
# What the dispatcher calls: bus, store and metrics

Everything outside the coordinator is kept per task (`Outside`): the row of the
`tasks` table, and the history of what was done for the task, newest first. The
history is ghost: it records requests with the results map they were built from,
routed replies, finalizations, and each store call with its outcome.

`Env` is the rest of the environment. Its `raises` decides for every call,
knowing the task's history, whether the call raises; a call that raises has no
effect. Quantifying over `Env` therefore covers every pattern of failures.
-/
namespace MasResearch.L2

open MasResearch.L1

/-- mirrors src/db/models.py:17-27; timestamps and the user id are read by nothing here -/
structure TaskRow where
  status : TaskStatus
  requestedOutputs : List Operation
  finalArtifact : Option ResultArtifact := none
  stats : Option ResultStats := none

/-- Who put a task into `_tasks`. -/
inductive Registrar where
  | submit | recovery
  deriving DecidableEq, Repr

/-- Why a task was finalized: nothing pending, or the global deadline. -/
inductive Cause where
  | resolved | deadline
  deriving DecidableEq, Repr

inductive Event where
  | published (channel : String) (subtask : Subtask) (results : Results) (request : Message) (at_ : ℚ)
  | publishFailed (subtaskId : String)
  | recovered
  | registered (who : Registrar)
  | routed (reply : Message)
  | finalizing (cause : Cause) (status : TaskStatus) (state : TaskState)
  | artifactSaved (artifact : ResultArtifact)
  | artifactFailed
  | statusSet (status : TaskStatus)
  | statusFailed (status : TaskStatus)
  | resultSaved (operation : Operation) (content : Content)
  | resultFailed (operation : Operation)

/-- Events other than requests, routed replies and finalizations. -/
def Event.quiet : Event → Bool
  | .published .. | .routed _ | .finalizing .. => false
  | _ => true

/-- The outcome of a store call, or a request that raised. -/
def Event.outcome : Event → Bool
  | .publishFailed _ | .artifactSaved _ | .artifactFailed | .statusSet _ | .statusFailed _
  | .resultSaved .. | .resultFailed _ => true
  | _ => false

/-- A registration, or a request. -/
def Event.entry : Event → Bool
  | .registered _ | .published .. => true
  | _ => false

theorem Event.quiet_of_outcome {e : Event} (h : e.outcome = true) : e.quiet = true := by
  cases e <;> first | rfl | cases h

/-- The external calls made for one task. -/
inductive Call where
  | publish (subtaskId : String)
  | saveArtifact
  | setStatus (status : TaskStatus)
  | saveResult (operation : Operation)
  deriving DecidableEq, Repr

/-- `uuid` and `utcnow` feed `make_message`; `repr` is Python's, `toInt` is Python's
`int` on what is not an integer. -/
structure Env where
  raises : List Event → Call → Bool
  uuid : List Event → String
  utcnow : List Event → String
  repr : Value → String
  toInt : Value → Except PyError Int
  validators : Validators

/-- `str(value)`. -/
def Env.str (env : Env) : Value → String
  | .none => "None"
  | .bool b => if b then "True" else "False"
  | .int n => toString n
  | .str s => s
  | v => env.repr v

/-- `int(value)`. -/
def Env.int (env : Env) : Value → Except PyError Int
  | .int n => .ok n
  | v => env.toInt v

/-- The part of the world that belongs to one task. -/
structure Outside where
  history : List Event
  row : Option TaskRow

def Outside.note (o : Outside) (e : Event) : Outside := { o with history := e :: o.history }

@[simp] theorem Outside.note_history (o : Outside) (e : Event) : (o.note e).history = e :: o.history := rfl

@[simp] theorem Outside.note_row (o : Outside) (e : Event) : (o.note e).row = o.row := rfl

/-! ## Bus -/

/-- mirrors src/core/bus.py:27-31 -/
def channelForAgent (agent : String) : String :=
  if agent = "coordinator" then "agent.coordinator.inbox" else "agent." ++ agent

/-- `RedisStreamBus.publish` of a request. One that raises is modelled as one that sent nothing: a
connection that broke after the request had reached the stream is left out.
mirrors src/core/bus.py:48-51 -/
def busPublish (env : Env) (channel : String) (subtask : Subtask) (results : Results)
    (request : Message) (now : ℚ) : Exec Outside PyError Unit := do
  let o ← Exec.get
  if env.raises o.history (.publish subtask.id) then
    Exec.modify (·.note (.publishFailed subtask.id))
    Exec.raise .external
  else Exec.modify (·.note (.published channel subtask results request now))

/-! ## Store (`agents/store.py`, `db/repos.py`) -/

/-- `DbTaskStore.set_status`: the row must exist (the text of the `KeyError` goes on
with the task's id).
mirrors src/agents/store.py:35-38, src/db/repos.py:41-46 -/
def setStatus (env : Env) (status : TaskStatus) : Exec Outside PyError Unit := do
  let o ← Exec.get
  if env.raises o.history (.setStatus status) then
    Exec.modify (·.note (.statusFailed status))
    Exec.raise .external
  else
    match o.row with
    | none =>
      Exec.modify (·.note (.statusFailed status))
      Exec.raise (.keyError "task not found")
    | some row =>
      Exec.modify fun o => { o.note (.statusSet status) with row := some { row with status := status } }

/-- `DbTaskStore.save_artifact`: the row must exist.
mirrors src/agents/store.py:40-43, src/db/repos.py:53-59 -/
def saveArtifact (env : Env) (artifact : ResultArtifact) : Exec Outside PyError Unit := do
  let o ← Exec.get
  if env.raises o.history .saveArtifact then
    Exec.modify (·.note .artifactFailed)
    Exec.raise .external
  else
    match o.row with
    | none =>
      Exec.modify (·.note .artifactFailed)
      Exec.raise (.keyError "task not found")
    | some row =>
      Exec.modify fun o =>
        { o.note (.artifactSaved artifact) with
          row := some { row with finalArtifact := some artifact, stats := some artifact.stats } }

/-- `DbTaskStore.save_result`, by its outcome. -/
def saveResult (env : Env) (operation : Operation) (content : Content) : Exec Outside PyError Unit := do
  let o ← Exec.get
  if env.raises o.history (.saveResult operation) then
    Exec.modify (·.note (.resultFailed operation))
    Exec.raise .external
  else Exec.modify (·.note (.resultSaved operation content))

end MasResearch.L2
