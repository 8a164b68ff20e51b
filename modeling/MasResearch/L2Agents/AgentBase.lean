import MasResearch.Core.LTS
import MasResearch.L2Dispatch.Inbox

/-!
# The read loop of an agent (`agents/base.py`)

An agent reads one entry at a time from its channel. A message id it has cached is
acknowledged at once; any other message is handled, the reply is published to the
coordinator's inbox, and the entry is acknowledged after that. An exception ends the
round: the loop logs it and reads on, unless the task was cancelled.

`Reception` is a delivered entry with what the surroundings do while it is handled: the
flag in the environment, what the handler does, and whether `XADD` and `XACK` return.
`HANG_AGENT` delays the handler and is not modelled; a cancelled sleep is a handler that
was cancelled.

`Agent.inbox`, `Agent.handled` and `Agent.acked` are ghost: the replies that reached the
coordinator's inbox, the messages that were accepted, and the acknowledged ones, each with
the inbox at that moment.
-/
namespace MasResearch.L2

open MasResearch.L1

/-- What `handle` does: it returns `_inform` or `_refuse`, or `None`, or raises. `adapterError`
is one of the classes `_safe_handle` catches. -/
inductive HandlerOutcome where
  | inform (content : Content)
  | refuse (reason : String)
  | skip
  | adapterError (className : String)
  | error
  | cancelled

/-- An `XADD` returned, or raised, in which case the reply may have arrived. -/
inductive PublishOutcome where
  | ok
  | failed (sent : Bool)
  deriving DecidableEq, Repr

structure Reception extends Delivery where
  outcome : HandlerOutcome
  forceRefuse : String := ""
  publish : PublishOutcome := .ok
  hex : String := ""
  timestamp : String := ""

/-- One `XREADGROUP` of at most one entry: it raised, timed out, or delivered. -/
inductive Arrival where
  | unavailable
  | nothing
  | entry (d : Reception)

inductive AgentError where
  | validationError | bus | handler | cancelled
  deriving DecidableEq, Repr

/-- mirrors src/agents/base.py:33-39 -/
structure AgentConfig where
  name : String
  operation : Operation

/-- An acknowledged message, with the replies in the coordinator's inbox at that moment. -/
structure AckedRequest where
  request : Message
  inbox : List Message

structure Agent where
  receiver : IdempotentReceiver
  running : Bool := true
  inbox : List Message := []
  handled : List Reception := []
  acked : List AckedRequest := []

abbrev AgentM := Exec Agent AgentError

/-- `self._idempotency.accept(message.message_id)`. -/
def acceptMessage (d : Reception) (message : Message) : AgentM Bool := do
  let s ← Exec.get
  let isNew := (s.receiver.accept message.messageId).1
  Exec.modify fun s =>
    { s with
      receiver := (s.receiver.accept message.messageId).2
      handled := if isNew then d :: s.handled else s.handled }
  pure isNew

/-- `RedisStreamBus.ack`.
mirrors src/core/bus.py:82-84 -/
def ackMessage (d : Reception) (message : Message) : AgentM Unit :=
  let acknowledge := Exec.modify fun s : Agent => { s with acked := ⟨message, s.inbox⟩ :: s.acked }
  match d.ack with
  | .ok => acknowledge
  | .failed true => do acknowledge; Exec.raise .bus
  | .failed false => Exec.raise .bus

/-- `RedisStreamBus.publish` to the coordinator's inbox.
mirrors src/core/bus.py:48-51 -/
def publishReply (d : Reception) (reply : Message) : AgentM Unit :=
  let add := Exec.modify fun s : Agent => { s with inbox := reply :: s.inbox }
  match d.publish with
  | .ok => add
  | .failed true => do add; Exec.raise .bus
  | .failed false => Exec.raise .bus

/-- `self._is_flagged("FORCE_REFUSE")`.
mirrors src/agents/base.py:96-97 -/
def AgentConfig.flagged (a : AgentConfig) (d : Reception) : Prop := d.forceRefuse = a.operation.value

instance (a : AgentConfig) (d : Reception) : Decidable (a.flagged d) :=
  inferInstanceAs (Decidable (_ = _))

/-- mirrors src/agents/base.py:69-94 -/
def safeHandle (a : AgentConfig) (d : Reception) (message : Message) : AgentM (Option Message) :=
  let reply := replyFor d.hex d.timestamp a.name message
  if a.flagged d then pure (some (reply (.error "force_refuse flag enabled")))
  else match d.outcome with
    | .inform content => pure (some (reply (.ok content)))
    | .refuse reason => pure (some (reply (.error reason)))
    | .skip => pure none
    | .adapterError className => pure (some (reply (.error ("adapter error: " ++ className))))
    | .error => Exec.raise .handler
    | .cancelled => Exec.raise .cancelled

/-- mirrors src/agents/base.py:65-67 -/
def answer (d : Reception) (message : Message) (reply : Option Message) : AgentM Unit := do
  match reply with
  | some reply => publishReply d reply
  | none => pure ()
  ackMessage d message

/-- mirrors src/agents/base.py:59-67 -/
def readOnce (a : AgentConfig) : Arrival → AgentM Unit
  | .unavailable => Exec.raise .bus
  | .nothing => pure ()
  | .entry d =>
    match d.payload with
    | none => Exec.raise .validationError
    | some message => do
      let isNew ← acceptMessage d message
      if isNew = false then ackMessage d message
      else do
        let reply ← safeHandle a d message
        answer d message reply

/-- The body of the loop of `run`; a cancelled task leaves it.
mirrors src/agents/base.py:47-54 -/
def loopRound (a : AgentConfig) (arrival : Arrival) : AgentM Unit :=
  Exec.attempt (readOnce a arrival) fun error =>
    if error = .cancelled then do
      Exec.modify fun s => { s with running := false }
      Exec.raise error
    else pure ()

def Agent.next (a : AgentConfig) (s : Agent) (arrival : Arrival) : Agent := ((loopRound a arrival).run s).2

/-- The agent after its constructor. -/
def Agent.Started (s : Agent) : Prop :=
  s.running = true ∧ s.receiver.seen = [] ∧ s.inbox = [] ∧ s.handled = [] ∧ s.acked = []

end MasResearch.L2
