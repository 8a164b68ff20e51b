import MasResearch.Core.Keys
import MasResearch.L2Store.TaskRows

/-!
# The upload endpoint (`create_task` in `api/routes.py`)

`createTask` is what the endpoint makes of the files and operations of a form: the task
it submits, or the HTTP error it answers. Nothing restricts how often an operation is
named.

* `createTask_ok`: what holds of every task that is submitted.
-/
namespace MasResearch.L2

open MasResearch.L1

structure HttpException where
  statusCode : Nat
  detail : String
  deriving DecidableEq

structure Upload where
  filename : Option String
  contentType : Option String

/-- `s.startswith(p)`. -/
def startsWith (s p : String) : Bool := p.toList.isPrefixOf s.toList

/-- `s.endswith(suffixes)`. -/
def endsWith (s : String) (suffixes : List String) : Bool := suffixes.any fun p => p.toList.isSuffixOf s.toList

/-- mirrors src/api/routes.py:21 -/
def allowedAudioSuffixes : List String := [".mp3", ".wav", ".m4a", ".flac", ".ogg"]

/-- mirrors src/api/routes.py:22 -/
def allowedImageSuffixes : List String := [".jpg", ".jpeg", ".png", ".gif", ".bmp", ".tiff"]

/-- The string methods, the framework and the disk. `unprocessable` is what the framework says of
missing fields; `save` picks a destination under the task's directory and writes the file there, or
raises. -/
structure Server where
  lower : String → String
  repr : List (Option String) → String
  unprocessable : List String → String
  save : String → Upload → Nat → Except HttpException String

/-- mirrors src/api/routes.py:27-37 -/
def detectDocumentType (server : Server) (upload : Upload) : DocumentType :=
  let contentType := server.lower (upload.contentType.getD "")
  let name := server.lower (upload.filename.getD "")
  if startsWith contentType "audio/" || endsWith name allowedAudioSuffixes then .audio
  else if contentType = "application/pdf" || endsWith name [".pdf"] then .pdf
  else if startsWith contentType "image/" || endsWith name allowedImageSuffixes then .image
  else .text

/-- The fields of the form without which the framework does not call the endpoint; a field that may
be repeated has to be there once.
mirrors src/api/routes.py:78-79 -/
def requireFields {φ : Type} (server : Server) (files : List φ) (ops : List String) : Except HttpException Unit :=
  let missing := (if files.isEmpty then ["files"] else []) ++ (if ops.isEmpty then ["ops"] else [])
  if missing = [] then .ok () else .error ⟨422, server.unprocessable missing⟩

/-- mirrors src/api/routes.py:84-87 -/
def parseOperations (ops : List String) : Except HttpException (List Operation) :=
  match ops.mapM operationOf with
  | .ok operations => .ok operations
  | .error (.valueError msg) => .error ⟨400, "invalid operation: " ++ msg⟩
  -- `Operation(op)` raises nothing else
  | .error _ => .error ⟨500, "Internal Server Error"⟩

/-- The document of one upload.
mirrors src/api/routes.py:110-132 -/
def saveUpload (server : Server) (taskId : String) (upload : Upload) (index : Nat) : Except HttpException Document := do
  let filePath ← server.save taskId upload index
  pure { id := numbered ("doc-" ++ taskId) index, taskId := taskId, documentType := detectDocumentType server upload,
         filePath := filePath, originalName := upload.filename }

/-- `taskId` is `f"task-{uuid.uuid4().hex[:8]}"`.
mirrors src/api/routes.py:75-139 -/
def createTask (server : Server) (taskId : String) (files : List Upload) (ops : List String) :
    Except HttpException Task := do
  requireFields server files ops
  if files = [] then .error ⟨400, "no files provided"⟩
  else
    let operations ← parseOperations ops
    let unsupported := (files.filter fun upload => detectDocumentType server upload = .text).map Upload.filename
    if unsupported ≠ [] then
      .error ⟨400, "unsupported document type(s): " ++ server.repr unsupported ++ "; supported: audio, pdf, image"⟩
    else
      let documents ← files.zipIdx.mapM fun file => saveUpload server taskId file.1 file.2
      pure { id := taskId, requestedOutputs := operations, conversationId := "conv-" ++ taskId,
             documents := documents }

/-! ## Submitted tasks -/

theorem value_of_operationOf {s : String} {op : Operation} (h : operationOf s = .ok op) : op.value = s := by
  unfold operationOf enumOf at h
  split at h
  · rename_i m hm
    cases h
    simpa using List.find?_some hm
  · cases h

variable {server : Server} {taskId : String}

theorem requireFields_ok_iff {φ : Type} {files : List φ} {ops : List String} :
    requireFields server files ops = .ok () ↔ files ≠ [] ∧ ops ≠ [] := by
  unfold requireFields
  cases files <;> cases ops <;> simp

theorem map_value_parseOperations {ops : List String} {operations : List Operation}
    (h : parseOperations ops = .ok operations) : operations.map Operation.value = ops := by
  unfold parseOperations at h
  split at h
  · rename_i operations' hm
    cases h
    have hall := mapM_ok_iff.mp hm
    clear hm
    induction hall with
    | nil => rfl
    | cons hx _ ih => rw [List.map_cons, value_of_operationOf hx, ih]
  · cases h
  · cases h

theorem saveUpload_ok {upload : Upload} {index : Nat} {d : Document}
    (h : saveUpload server taskId upload index = .ok d) :
    d.id = numbered ("doc-" ++ taskId) index ∧ d.documentType = detectDocumentType server upload := by
  unfold saveUpload at h
  cases hs : server.save taskId upload index with
  | error e => rw [hs] at h; cases h
  | ok filePath => rw [hs] at h; cases h; exact ⟨rfl, rfl⟩

theorem documents_of_mapM {files : List (Upload × Nat)} {documents : List Document}
    (h : files.mapM (fun file => saveUpload server taskId file.1 file.2) = .ok documents) :
    documents.map Document.id = (files.map Prod.snd).map (numbered ("doc-" ++ taskId)) ∧
      documents.map Document.documentType = (files.map Prod.fst).map (detectDocumentType server) := by
  have hall := mapM_ok_iff.mp h
  clear h
  induction hall with
  | nil => exact ⟨rfl, rfl⟩
  | cons hx _ ih =>
    obtain ⟨hid, htype⟩ := saveUpload_ok hx
    simp only [List.map_cons, hid, htype, ih.1, ih.2, and_self]

/-- Every submitted task has a document for each file, none of them plain text, under an id
of its own, and the operations as the form names them. -/
theorem createTask_ok {files : List Upload} {ops : List String} {task : Task}
    (h : createTask server taskId files ops = .ok task) :
    task.id = taskId ∧ task.requestedOutputs.map Operation.value = ops ∧ task.documents.length = files.length ∧
      files ≠ [] ∧ ops ≠ [] ∧ (∀ d ∈ task.documents, d.documentType ≠ .text) ∧
      (task.documents.map Document.id).Nodup := by
  obtain ⟨⟨⟩, hfields, h⟩ := bind_ok_iff.mp h
  have hops := (requireFields_ok_iff.mp hfields).2
  split at h
  · cases h
  · rename_i hne
    cases hparsed : parseOperations ops with
    | error e => rw [hparsed] at h; cases h
    | ok operations =>
      cases hdocs : files.zipIdx.mapM fun file => saveUpload server taskId file.1 file.2 with
      | error e =>
        simp only [hparsed, hdocs] at h
        split at h <;> cases h
      | ok documents =>
        simp only [hparsed, hdocs] at h
        split at h
        · cases h
        · rename_i hsup
          cases h
          obtain ⟨hids, htypes⟩ := documents_of_mapM hdocs
          rw [List.zipIdx_map_snd] at hids
          rw [List.zipIdx_map_fst] at htypes
          refine ⟨rfl, map_value_parseOperations hparsed, ?_, hne, hops, fun d hd htext => hsup ?_, ?_⟩
          · simpa using congrArg List.length htypes
          · -- the file of a text document would have been refused
            have hmem := htext ▸ htypes ▸ List.mem_map_of_mem (f := Document.documentType) hd
            obtain ⟨upload, hu, hdetect⟩ := List.mem_map.mp hmem
            rw [ne_eq, List.map_eq_nil_iff, List.filter_eq_nil_iff]
            exact fun hnone => hnone upload hu (decide_eq_true hdetect)
          · rw [hids]
            exact (List.nodup_range').map fun m n he => (numbered_inj he).2

end MasResearch.L2
