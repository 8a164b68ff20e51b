import Mathlib.Algebra.Order.Ring.Rat

/-!
# Domain entities (`core/schemas.py`, `core/messages.py`)

`Value` is what a JSON payload decodes to; a message `content` is a Python
`dict[str, Any]`, kept as its list of items in order. Seconds (`time.monotonic`,
timeouts, back-offs) are rationals.

The request and reply messages are built by `makeMessage`; the eight hex digits
of `uuid4` and the timestamp are arguments.
-/
namespace MasResearch.L1

inductive Value where
  | none
  | bool (b : Bool)
  | int (n : Int)
  | float (q : ℚ)
  | str (s : String)
  | list (xs : List Value)
  | dict (items : List (String × Value))

/-- `dict[str, Any]`. -/
abbrev Content := List (String × Value)

/-- `content.get(key)`. -/
def Content.get? (c : Content) (key : String) : Option Value := c.lookup key

/-- mirrors src/core/schemas.py:15-23 -/
inductive Operation where
  | f1Transcribe | f2Ocr | f3Summarize | f4Test | f5Terms | f6Recommend
  deriving DecidableEq, Repr

def Operation.value : Operation → String
  | .f1Transcribe => "F1"
  | .f2Ocr => "F2"
  | .f3Summarize => "F3"
  | .f4Test => "F4"
  | .f5Terms => "F5"
  | .f6Recommend => "F6"

theorem Operation.value_inj {a b : Operation} (h : a.value = b.value) : a = b := by
  cases a <;> cases b <;> first | rfl | (exfalso; revert h; decide)

/-- mirrors src/core/schemas.py:26-32 -/
inductive DocumentType where
  | audio | image | pdf | text
  deriving DecidableEq, Repr

def DocumentType.value : DocumentType → String
  | .audio => "audio"
  | .image => "image"
  | .pdf => "pdf"
  | .text => "text"

/-- mirrors src/core/schemas.py:35-42 -/
inductive TaskStatus where
  | planning | running | partialReady | completed | failed
  deriving DecidableEq, Repr

def TaskStatus.value : TaskStatus → String
  | .planning => "planning"
  | .running => "running"
  | .partialReady => "partial_ready"
  | .completed => "completed"
  | .failed => "failed"

/-- The statuses a client may read a result under. -/
def TaskStatus.terminal : TaskStatus → Bool
  | .planning | .running => false
  | .partialReady | .completed | .failed => true

/-- mirrors src/core/schemas.py:45-53 -/
structure Document where
  id : String
  taskId : String
  documentType : DocumentType
  filePath : String
  originalName : Option String := none
  metadata : Content := []

/-- mirrors src/core/schemas.py:129-139 -/
structure Task where
  id : String
  userId : String := "demo-user"
  status : TaskStatus := .planning
  requestedOutputs : List Operation
  conversationId : String
  documents : List Document := []
  deriving Inhabited

/-! ## Results -/

/-- mirrors src/core/schemas.py:69-71; the section types are
introduction / thesis / conclusion. -/
inductive SectionType where
  | introduction | thesis | conclusion
  deriving DecidableEq, Repr

structure SummarySection where
  type : SectionType
  text : String
  deriving DecidableEq, Repr

/-- mirrors src/core/schemas.py:74-79 -/
structure Summary where
  summaryId : String
  sections : List SummarySection
  sourceChunkIds : List String := []
  deriving DecidableEq, Repr

/-- mirrors src/core/schemas.py:82-90 -/
structure Term where
  term : String
  «lemma» : String
  frequency : Int
  category : String
  context : Option String := none
  sourceChunkId : Option String := none
  deriving DecidableEq, Repr

inductive QuestionType where
  | singleChoice | multiChoice | openAnswer
  deriving DecidableEq, Repr

/-- mirrors src/core/schemas.py:93-101 -/
structure QuizQuestion where
  question : String
  type : QuestionType
  choices : List String := []
  answerIdx : Option Int := none
  answerIndices : Option (List Int) := none
  sourceChunkId : Option String := none
  deriving DecidableEq, Repr

/-- mirrors src/core/schemas.py:119-126 -/
structure Citation where
  title : String
  authors : Option String := none
  year : Option Int := none
  url : Option String := none
  relevanceScore : ℚ
  deriving DecidableEq, Repr

/-- mirrors src/core/schemas.py:142-147 -/
structure FailedOperation where
  op : Operation
  agent : String
  reason : String
  retries : Nat
  elapsedSec : ℚ
  deriving DecidableEq, Repr

/-- mirrors src/core/schemas.py:150-156 -/
structure ResultStats where
  durationSec : ℚ
  agentsCalled : Nat
  messagesExchanged : Nat
  failedOperations : List FailedOperation := []
  deriving DecidableEq, Repr

/-- mirrors src/core/schemas.py:159-167 -/
structure ResultPayload where
  summary : Option Summary := none
  terms : List Term := []
  quiz : List QuizQuestion := []
  citations : List Citation := []
  deriving DecidableEq, Repr

/-- mirrors src/core/schemas.py:170-180 -/
structure ResultArtifact where
  taskId : String
  status : TaskStatus
  operations : List Operation
  result : ResultPayload
  degraded : List Operation := []
  stats : ResultStats
  deriving DecidableEq, Repr

/-! ## Messages -/

/-- mirrors src/core/messages.py:17-23 -/
inductive Performative where
  | request | inform | refuse | queryRef
  deriving DecidableEq, Repr

/-- mirrors src/core/messages.py:29-44 -/
structure Message where
  messageId : String
  performative : Performative
  sender : String
  receiver : String
  taskId : String
  conversationId : String
  content : Content
  replyTo : String := "agent.coordinator.inbox"
  timestamp : String
  inReplyTo : Option String := none
  subtaskId : Option String := none

/-- mirrors src/core/messages.py:47-75 -/
def makeMessage (hex timestamp : String) (performative : Performative) (sender receiver taskId
    conversationId : String) (content : Content) (inReplyTo subtaskId : Option String) : Message where
  messageId := "msg-" ++ hex
  performative := performative
  sender := sender
  receiver := receiver
  taskId := taskId
  conversationId := conversationId
  content := content
  timestamp := timestamp
  inReplyTo := inReplyTo
  subtaskId := subtaskId

/-- `AgentBase._inform` and `AgentBase._refuse`: the reply of the agent called
`name` to `request`, an `inform` with the content or a `refuse` with a reason.
mirrors src/agents/base.py:99-121 -/
def replyFor (hex timestamp name : String) (request : Message) : Except String Content → Message
  | .ok content => makeMessage hex timestamp .inform name request.sender request.taskId
      request.conversationId content (some request.messageId) request.subtaskId
  | .error reason => makeMessage hex timestamp .refuse name request.sender request.taskId
      request.conversationId [("reason", .str reason)] (some request.messageId) request.subtaskId

end MasResearch.L1
