import MasResearch.L2Dispatch.World

/-!
# The dispatch methods of one task (`agents/coordinator.py`)

`Ctx` is what the coordinator's per-task methods work on: the task's `TaskState`
and its part of the world. The methods follow the source statement by statement;
`plan.get` raises `KeyError` where the source calls it, and a request that raises
leaves the `TaskState` as it was at the call.

The `while changed` loop of `_advance` is given `roundBound` rounds;
`L2Dispatch.Moves` shows that a registered task never uses them up.
-/
namespace MasResearch.L2

open MasResearch.L1

structure Ctx where
  state : TaskState
  outside : Outside

abbrev Dispatch := Exec Ctx PyError

/-- mirrors src/agents/coordinator.py:85-104 -/
structure Config where
  agentTimeouts : Dict AgentName ℚ := ∅
  globalDeadlineSec : ℚ := 1000000000

def coordinatorName : String := "CoordinatorAgent"

/-- mirrors src/agents/coordinator.py:337-343 -/
def Config.timeoutFor (cfg : Config) (agent : AgentName) : ℚ :=
  cfg.agentTimeouts.getD agent (agentTimeoutsSec agent)

def Ctx.note (c : Ctx) (e : Event) : Ctx := { c with outside := c.outside.note e }

def Ctx.update (c : Ctx) (f : TaskState → TaskState) : Ctx := { c with state := f c.state }

def modifyState (f : TaskState → TaskState) : Dispatch Unit := Exec.modify (·.update f)

def noteEvent (e : Event) : Dispatch Unit := Exec.modify (·.note e)

/-- A bus or store call of the task. -/
def outward {α : Type} (x : Exec Outside PyError α) : Dispatch α :=
  Exec.zoom Ctx.outside (fun c o => { c with outside := o }) x

/-- `state.plan.get(subtask_id)`. -/
def planGet (sid : String) : Dispatch Subtask := do
  let c ← Exec.get
  match c.state.plan.get? sid with
  | some subtask => pure subtask
  | none => Exec.raise (.keyError ("unknown subtask id: " ++ sid))

/-- mirrors src/agents/coordinator.py:310-318 -/
def failSubtask (sid reason : String) (now : ℚ) : Dispatch Unit := do
  modifyState (·.fail sid reason now)
  let _ ← planGet sid

/-- `BACKOFF_SECONDS[i]`. -/
def backoffAt (i : Nat) : Dispatch ℚ :=
  match backoffSeconds[i]? with
  | some b => pure b
  | none => Exec.raise .indexError

/-- mirrors src/agents/coordinator.py:301-308 -/
def scheduleRetryOrFail (sid reason : String) (now : ℚ) : Dispatch Unit := do
  let c ← Exec.get
  if retryMax ≤ c.state.retries sid then failSubtask sid reason now
  else
    modifyState (·.countRetry sid)
    let c ← Exec.get
    let backoff ← backoffAt (c.state.retries sid - 1)
    modifyState (·.scheduleRetry sid reason (now + backoff))
    let _ ← planGet sid

/-- The REQUEST for `subtask` as `_publish` builds it.
mirrors src/agents/coordinator.py:321-330 -/
def Ctx.request (env : Env) (c : Ctx) (subtask : Subtask) : Message :=
  makeMessage (env.uuid c.outside.history) (env.utcnow c.outside.history) .request coordinatorName
    subtask.agent.value c.state.task.id
    ("conv-" ++ c.state.task.id ++ "-" ++ subtask.operation.value)
    (buildPayload subtask c.state.task c.state.results) none (some subtask.id)

/-- mirrors src/agents/coordinator.py:320-335 -/
def publish (env : Env) (cfg : Config) (subtask : Subtask) (now : ℚ) : Dispatch Unit := do
  let c ← Exec.get
  outward (busPublish env (channelForAgent subtask.agent.value) subtask c.state.results
    (c.request env subtask) now)
  modifyState (·.markPublished subtask.id now (cfg.timeoutFor subtask.agent))

/-- `[dep for dep in subtask.depends_on if state.results.get(dep) is not None]`. -/
def succeeded (subtask : Subtask) (results : Results) : List String :=
  subtask.dependsOn.filter fun dep => (results.content? dep).isSome

/-- One round of the readiness loop.
mirrors src/agents/coordinator.py:265-277 -/
def advanceSubtask (env : Env) (cfg : Config) (now : ℚ) (subtask : Subtask) : Dispatch Bool := do
  let c ← Exec.get
  let s := c.state
  if subtask.id ∈ s.published ∨ subtask.id ∉ s.pending then pure false
  else if ¬ DepsResolved subtask s.results then pure false
  else
    if subtask.dependsOn ≠ [] ∧ succeeded subtask s.results = [] then
      failSubtask subtask.id "skipped: all upstream failed" now
    else if subtask.join = .all ∧ (succeeded subtask s.results).length < subtask.dependsOn.length then
      failSubtask subtask.id "skipped: upstream failed" now
    else publish env cfg subtask now
    pure true

/-- mirrors src/agents/coordinator.py:285-289 -/
def expireDeadline (now : ℚ) (sid : String) : Dispatch Bool := do
  let c ← Exec.get
  match c.state.deadlines.get? sid with
  | none => Exec.raise (.keyError sid)
  | some deadline =>
    if deadline < now then
      modifyState (·.dropDeadline sid)
      scheduleRetryOrFail sid "timeout" now
      pure true
    else pure false

/-- mirrors src/agents/coordinator.py:283-290 -/
def expireTimeouts (now : ℚ) : Dispatch Bool := do
  let c ← Exec.get
  Exec.anyChanged c.state.deadlines.keys (expireDeadline now)

/-- mirrors src/agents/coordinator.py:294-298 -/
def republish (env : Env) (cfg : Config) (now : ℚ) (sid : String) : Dispatch Bool := do
  let c ← Exec.get
  match c.state.retryAt.get? sid with
  | none => Exec.raise (.keyError sid)
  | some due =>
    if due ≤ now then
      modifyState (·.dropRetry sid)
      let subtask ← planGet sid
      publish env cfg subtask now
      pure true
    else pure false

/-- mirrors src/agents/coordinator.py:292-299 -/
def republishDue (env : Env) (cfg : Config) (now : ℚ) : Dispatch Bool := do
  let c ← Exec.get
  Exec.anyChanged c.state.retryAt.keys (republish env cfg now)

/-- `for subtask in state.plan.subtasks: ...`. -/
def advanceReady (env : Env) (cfg : Config) (now : ℚ) : Dispatch Bool := do
  let c ← Exec.get
  Exec.anyChanged c.state.plan.subtasks (advanceSubtask env cfg now)

/-- mirrors src/agents/coordinator.py:278-281 -/
def advanceTimers (env : Env) (cfg : Config) (now : ℚ) : Dispatch Bool := do
  let expired ← expireTimeouts now
  let due ← republishDue env cfg now
  pure (expired || due)

/-- The body of `while changed`.
mirrors src/agents/coordinator.py:264-281 -/
def advanceRound (env : Env) (cfg : Config) (now : ℚ) : Dispatch Bool := do
  let ready ← advanceReady env cfg now
  let timers ← advanceTimers env cfg now
  pure (ready || timers)

/-- Rounds granted to the loop of `_advance`. -/
def roundBound (p : Plan) : Nat := 11 * p.subtasks.length + 1

/-- mirrors src/agents/coordinator.py:261-281 -/
def advance (env : Env) (cfg : Config) (now : ℚ) : Dispatch Unit := do
  let c ← Exec.get
  Exec.whileChanged (advanceRound env cfg now) .loops (roundBound c.state.plan)

/-- What `_persist_result` is called with. -/
structure Job where
  taskId : String
  operation : Operation
  content : Content

/-- `f"refuse: {reply.content.get('reason')}"`. -/
def refuseReason (env : Env) (reply : Message) : String :=
  "refuse: " ++ env.str ((reply.content.get? "reason").getD .none)

/-- Returns what it appends to `persist_jobs`.
mirrors src/agents/coordinator.py:217-241 -/
def routeReply (env : Env) (reply : Message) (now : ℚ) : Dispatch (List Job) := do
  let c ← Exec.get
  match reply.subtaskId with
  | none => pure []
  | some sid =>
    if sid ∉ c.state.pending then pure []
    else
      modifyState (·.countMessage)
      modifyState (·.dropDeadline sid)
      if reply.performative = .refuse then
        scheduleRetryOrFail sid (refuseReason env reply) now
        pure []
      else
        modifyState (·.inform sid reply.content now)
        let subtask ← planGet sid
        pure [⟨c.state.task.id, subtask.operation, reply.content⟩]

/-- mirrors src/agents/coordinator.py:381-392 -/
def finalize (env : Env) (cause : Cause) (now : ℚ) : Dispatch Unit := do
  let c ← Exec.get
  let status := determineFinalStatus c.state.plan c.state.results
  noteEvent (.finalizing cause status c.state)
  match assembleArtifact env.validators c.state status now with
  | .error e => Exec.raise e
  | .ok artifact =>
    outward (saveArtifact env artifact)
    outward (setStatus env status)

end MasResearch.L2
