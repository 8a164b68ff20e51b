import MasResearch.Core.Exec
import MasResearch.Core.Table
import MasResearch.L2Dispatch.Assembly

/-!
# Tasks and documents: from the endpoint to the tables and back

`create_task` writes a row for the task and one for each document; recovery selects a
task's documents and builds the task again (`taskFromRow`). The columns are strings, so
that each enumeration is read back from its value.

`list_for_task` has no ORDER BY: `ListForTask` holds for every order of the rows it may
return.

* `taskFromRow_create`: reading what was written gives the task with its documents in
  the order of the rows.
-/
namespace MasResearch.L2

open MasResearch.L1

/-! ## Enumerations -/

/-- `Enum(value)`: the member with the value. -/
def enumOf {α : Type} (enum : String) (members : List α) (value : α → String) (s : String) : Except PyError α :=
  match members.find? fun m => value m = s with
  | some m => .ok m
  | none => .error (.valueError ("'" ++ s ++ "' is not a valid " ++ enum))

def operationOf (s : String) : Except PyError Operation :=
  enumOf "Operation" [.f1Transcribe, .f2Ocr, .f3Summarize, .f4Test, .f5Terms, .f6Recommend] Operation.value s

def documentTypeOf (s : String) : Except PyError DocumentType :=
  enumOf "DocumentType" [.audio, .image, .pdf, .text] DocumentType.value s

def taskStatusOf (s : String) : Except PyError TaskStatus :=
  enumOf "TaskStatus" [.planning, .running, .partialReady, .completed, .failed] TaskStatus.value s

theorem operationOf_value (op : Operation) : operationOf op.value = .ok op := by cases op <;> decide

theorem documentTypeOf_value (type : DocumentType) : documentTypeOf type.value = .ok type := by
  cases type <;> decide

theorem taskStatusOf_value (status : TaskStatus) : taskStatusOf (status.value) = .ok status := by
  cases status <;> decide

/-! ## Rows -/

/-- mirrors src/db/models.py:17-25; the columns that recovery reads -/
structure TaskColumns where
  id : String
  userId : String := "demo-user"
  status : String
  requestedOutputs : List String

/-- mirrors src/db/models.py:33-41; the columns that are written and read -/
structure DocumentRow where
  id : String
  taskId : String
  documentType : String
  filePath : String
  originalName : Option String
  deriving DecidableEq

/-- mirrors src/db/repos.py:27-35 -/
def TaskColumns.create (taskId : String) (requestedOutputs : List Operation) : TaskColumns where
  id := taskId
  status := TaskStatus.planning.value
  requestedOutputs := requestedOutputs.map Operation.value

/-- mirrors src/db/repos.py:48-50 -/
def TaskColumns.updateStatus (row : TaskColumns) (status : TaskStatus) : TaskColumns :=
  { row with status := status.value }

/-- mirrors src/db/repos.py:68-86 -/
def DocumentRow.create (documentId taskId : String) (documentType : DocumentType) (filePath : String)
    (originalName : Option String) : DocumentRow where
  id := documentId
  taskId := taskId
  documentType := documentType.value
  filePath := filePath
  originalName := originalName

/-- The rows that `create_task` writes for the documents.
mirrors src/api/routes.py:110-122 -/
def documentRows (task : Task) : List DocumentRow :=
  task.documents.map fun d => DocumentRow.create d.id task.id d.documentType d.filePath d.originalName

/-- `rows` is a possible answer of `list_for_task`.
mirrors src/db/repos.py:88-90 -/
def ListForTask (documents : Table DocumentRow.id) (taskId : String) (rows : List DocumentRow) : Prop :=
  rows.Perm (documents.select fun row => row.taskId = taskId)

/-! ## Recovery -/

/-- mirrors src/agents/recovery.py:75-81 -/
def documentFromRow (row : DocumentRow) : Except PyError Document := do
  let documentType ← documentTypeOf row.documentType
  pure { id := row.id, taskId := row.taskId, documentType := documentType, filePath := row.filePath,
         originalName := row.originalName }

/-- mirrors src/agents/recovery.py:67-84 -/
def taskFromRow (row : TaskColumns) (documents : List DocumentRow) : Except PyError Task := do
  let status ← taskStatusOf row.status
  let requestedOutputs ← row.requestedOutputs.mapM operationOf
  let documents ← documents.mapM documentFromRow
  pure { id := row.id, userId := row.userId, status := status, requestedOutputs := requestedOutputs,
         conversationId := "conv-" ++ row.id, documents := documents }

/-! ## Reading what was written -/

/-- What is left of a document. -/
def rereadDocument (taskId : String) (d : Document) : Document :=
  { id := d.id, taskId := taskId, documentType := d.documentType, filePath := d.filePath,
    originalName := d.originalName }

theorem documentFromRow_create (taskId : String) (d : Document) :
    documentFromRow (DocumentRow.create d.id taskId d.documentType d.filePath d.originalName) =
      .ok (rereadDocument taskId d) := by
  simp only [documentFromRow, DocumentRow.create, documentTypeOf_value]
  rfl

/-- The task that is built again from the documents in some order. -/
def rebuilt (task : Task) (status : TaskStatus) (documents : List Document) : Task where
  id := task.id
  status := status
  requestedOutputs := task.requestedOutputs
  conversationId := "conv-" ++ task.id
  documents := documents.map (rereadDocument task.id)

theorem taskFromRow_create (task : Task) (status : TaskStatus) {documents : List Document}
    {rows : List DocumentRow}
    (hrows : rows = documents.map fun d => DocumentRow.create d.id task.id d.documentType d.filePath d.originalName) :
    taskFromRow ((TaskColumns.create task.id task.requestedOutputs).updateStatus status) rows =
      .ok (rebuilt task status documents) := by
  have hops : (task.requestedOutputs.map Operation.value).mapM operationOf = .ok task.requestedOutputs := by
    rw [List.mapM_map, mapM_ok (g := id) (f := operationOf ∘ Operation.value) fun op _ => operationOf_value op,
      List.map_id]
  have hdocs : rows.mapM documentFromRow = .ok (documents.map (rereadDocument task.id)) := by
    rw [hrows, List.mapM_map]
    exact mapM_ok fun d _ => documentFromRow_create task.id d
  simp only [taskFromRow, TaskColumns.create, TaskColumns.updateStatus, taskStatusOf_value, hops, hdocs]
  rfl

end MasResearch.L2
