import MasResearch.Core.Keys
import MasResearch.L2Dispatch.World

/-!
# Text chunks: from the ingestion agents to the table and back

F1 and F2 stamp the chunks of their adapter with the task, the document and an id
that ends in the chunk's index, and inform with the dumps. `saveChunks` maps the
content to rows and replaces the rows of its documents; recovery lists a task's rows
by id, buckets them by the operation that produces their `source_type` and maps each
bucket to a content again.

A `ChunkTable` is the table with its primary key: no two rows share an id.
-/
namespace MasResearch.L2

open MasResearch.L1

/-! ## Stamping -/

/-- mirrors src/core/schemas.py:62 -/
inductive SourceType where
  | audio | image | text | pdfExtracted
  deriving DecidableEq, Repr

def SourceType.value : SourceType → String
  | .audio => "audio"
  | .image => "image"
  | .text => "text"
  | .pdfExtracted => "pdf_extracted"

/-- mirrors src/core/schemas.py:56-66 -/
structure TextChunk where
  id : String
  taskId : String
  documentId : String
  sourceType : SourceType
  content : String
  chunkIndex : Int
  confidence : Option ℚ := none
  «meta» : Content := []

/-- `chunk.model_dump()`. -/
def TextChunk.dump (chunk : TextChunk) : Value :=
  .dict [("id", .str chunk.id), ("task_id", .str chunk.taskId), ("document_id", .str chunk.documentId),
    ("source_type", .str chunk.sourceType.value), ("content", .str chunk.content),
    ("chunk_index", .int chunk.chunkIndex), ("confidence", chunk.confidence.elim .none .float),
    ("meta", .dict chunk.meta)]

/-- `f"chunk-{document_id}-{index}"`. -/
def chunkId (documentId : String) (index : Nat) : String := numbered ("chunk-" ++ documentId) index

/-- mirrors src/agents/_chunk_stamp.py:19-28 -/
def stampChunk (chunk : TextChunk) (taskId documentId : String) (index : Nat) : TextChunk :=
  { chunk with id := chunkId documentId index, taskId := taskId, documentId := documentId, chunkIndex := index }

/-- `[stamp_chunk(chunk, ...) for index, chunk in enumerate(chunks)]`. -/
def stamped (taskId documentId : String) (chunks : List TextChunk) : List TextChunk :=
  chunks.mapIdx fun index chunk => stampChunk chunk taskId documentId index

/-- The content of F1's INFORM.
mirrors src/agents/transcriber.py:40-47 -/
def transcriberContent (taskId documentId language : String) (chunks : List TextChunk) : Content :=
  [("chunks", .list ((stamped taskId documentId chunks).map TextChunk.dump)), ("language", .str language)]

/-- The content of F2's INFORM.
mirrors src/agents/ocr.py:40-47 -/
def ocrContent (taskId documentId : String) (chunks : List TextChunk) : Content :=
  [("chunks", .list ((stamped taskId documentId chunks).map TextChunk.dump))]

/-! ## Rows -/

/-- mirrors src/db/models.py:46-58; `none` is a NULL in `meta` -/
structure TextChunkRow where
  id : String
  taskId : String
  documentId : String
  sourceType : String
  content : String
  chunkIndex : Int
  confidence : Value
  «meta» : Option Content

/-- The dict behind a value, if it is one. -/
def Value.asDict : Value → Option Content
  | .dict items => some items
  | _ => none

/-- The row of one chunk.
mirrors src/db/result_mapping.py:106-117 -/
def chunkRow (env : Env) (taskId : String) (chunk : Content) : Except PyError TextChunkRow := do
  let chunkIndex ← env.int ((chunk.get? "chunk_index").getD (.int 0))
  pure
    { id := env.str ((chunk.get? "id").getD .none)
      taskId := taskId
      documentId := env.str ((chunk.get? "document_id").getD .none)
      sourceType := env.str ((chunk.get? "source_type").getD .none)
      content := env.str ((chunk.get? "content").getD (.str ""))
      chunkIndex := chunkIndex
      confidence := (chunk.get? "confidence").getD .none
      «meta» := (chunk.get? "meta").bind Value.asDict }

/-- mirrors src/db/result_mapping.py:98-118 -/
def chunkRows (env : Env) (taskId : String) (content : Content) : Except PyError (List TextChunkRow) :=
  match content.get? "chunks" with
  | some (.list chunks) => (chunks.filterMap Value.asDict).mapM (chunkRow env taskId)
  | _ => .ok []

/-- `row.meta or {}`. -/
def TextChunkRow.dump (row : TextChunkRow) : Value :=
  .dict [("id", .str row.id), ("task_id", .str row.taskId), ("document_id", .str row.documentId),
    ("source_type", .str row.sourceType), ("content", .str row.content), ("chunk_index", .int row.chunkIndex),
    ("confidence", row.confidence), ("meta", .dict (row.meta.getD []))]

/-- mirrors src/db/result_mapping.py:121-136 -/
def contentFromChunkRows (rows : List TextChunkRow) : Content :=
  [("chunks", .list (rows.map TextChunkRow.dump))]

/-! ## The table -/

structure ChunkTable where
  rows : List TextChunkRow
  nodup : (rows.map (·.id)).Nodup

/-- `save_result` of F1 or F2: the rows of the content's documents are replaced; a
primary key taken by another row makes the flush raise.
mirrors src/db/repos.py:103-110 -/
def saveChunks (env : Env) (table : ChunkTable) (taskId : String) (content : Content) :
    Except PyError ChunkTable := do
  let rows ← chunkRows env taskId content
  let kept := table.rows.filter fun row => row.documentId ∉ rows.map (·.documentId)
  if h : ((kept ++ rows).map (·.id)).Nodup then .ok ⟨kept ++ rows, h⟩ else .error .external

/-- mirrors src/db/repos.py:128-132 -/
def listChunkRows (table : ChunkTable) (taskId : String) : List TextChunkRow :=
  byKey (·.id) (table.rows.filter fun row => row.taskId = taskId)

/-! ## Recovery -/

/-- mirrors src/agents/recovery.py:34-38 -/
def sourceTypeToOperation (sourceType : String) : Option Operation :=
  if sourceType = "audio" then some .f1Transcribe
  else if sourceType = "pdf_extracted" ∨ sourceType = "image" then some .f2Ocr
  else none

/-- One round of the loop of `bucket_chunks_by_operation`. -/
def bucketChunk (env : Env) (buckets : Dict Operation (List TextChunkRow)) (row : TextChunkRow) :
    Except PyError (Dict Operation (List TextChunkRow)) :=
  match sourceTypeToOperation row.sourceType with
  | none => .error (.valueError ("cannot bucket chunk " ++ env.repr (.str row.id) ++ ": unknown source_type " ++
      env.repr (.str row.sourceType)))
  | some operation => .ok (buckets.set operation (buckets.getD operation [] ++ [row]))

/-- mirrors src/agents/recovery.py:52-64 -/
def bucketChunksByOperation (env : Env) (rows : List TextChunkRow) :
    Except PyError (Dict Operation (List TextChunkRow)) := rows.foldlM (bucketChunk env) ∅

/-- The entry of the operation in the loaded results; an operation without rows gets none.
mirrors src/agents/recovery.py:110-115 -/
def reloadChunks (env : Env) (table : ChunkTable) (taskId : String) (operation : Operation) :
    Except PyError (Option Content) := do
  let buckets ← bucketChunksByOperation env (listChunkRows table taskId)
  pure ((buckets.get? operation).map contentFromChunkRows)

/-- The chunks of an operation's entry, as the payload builders read them.
mirrors src/agents/payloads.py:33-45 -/
def entryChunks (entry : Option Content) : List Value :=
  match (entry.getD []).get? "chunks" with
  | some (.list chunks) => chunks
  | _ => []

/-! ## Facts about the layers -/

section

variable {env : Env} {taskId documentId : String} {chunks : List TextChunk}

theorem chunkId_inj {d d' : String} {i j : Nat} (h : chunkId d i = chunkId d' j) : d = d' ∧ i = j := by
  obtain ⟨hs, hi⟩ := numbered_inj h
  refine ⟨?_, hi⟩
  have hs := congrArg String.toList hs
  simp only [String.toList_append, List.append_cancel_left_eq] at hs
  exact String.toList_inj.mp hs

theorem length_stamped : (stamped taskId documentId chunks).length = chunks.length := List.length_mapIdx

theorem getElem_stamped {i : Nat} (h : i < (stamped taskId documentId chunks).length) :
    ∃ chunk ∈ chunks, (stamped taskId documentId chunks)[i] = stampChunk chunk taskId documentId i := by
  have h' : i < chunks.length := by rwa [length_stamped] at h
  exact ⟨chunks[i], List.getElem_mem h', by simp [stamped]⟩

theorem mem_stamped {chunk : TextChunk} (h : chunk ∈ stamped taskId documentId chunks) :
    ∃ c ∈ chunks, ∃ i, chunk = stampChunk c taskId documentId i := by
  obtain ⟨i, hi, rfl⟩ := List.getElem_of_mem h
  obtain ⟨c, hc, he⟩ := getElem_stamped hi
  exact ⟨c, hc, i, he⟩

/-- The row that a dumped chunk is saved as. -/
def TextChunk.row (taskId : String) (chunk : TextChunk) : TextChunkRow where
  id := chunk.id
  taskId := taskId
  documentId := chunk.documentId
  sourceType := chunk.sourceType.value
  content := chunk.content
  chunkIndex := chunk.chunkIndex
  confidence := chunk.confidence.elim .none .float
  «meta» := some chunk.meta

theorem chunkRows_dump (env : Env) (taskId : String) {content : Content} {chunks : List TextChunk}
    (h : content.get? "chunks" = some (.list (chunks.map TextChunk.dump))) :
    chunkRows env taskId content = .ok (chunks.map (TextChunk.row taskId)) := by
  have hdict : ∀ cs : List TextChunk, (cs.map TextChunk.dump).filterMap Value.asDict =
      cs.map fun c => (Value.asDict c.dump).getD [] := by
    intro cs
    induction cs with
    | nil => rfl
    | cons c cs ih =>
      rw [List.map_cons, List.filterMap_cons]
      simp [TextChunk.dump, Value.asDict] at ih ⊢
      exact ih
  have hrows : ∀ cs : List TextChunk,
      (cs.map fun c => (Value.asDict c.dump).getD []).mapM (chunkRow env taskId) =
        .ok (cs.map (TextChunk.row taskId)) := by
    intro cs
    induction cs with
    | nil => rfl
    | cons c cs ih =>
      rw [List.map_cons, List.mapM_cons, ih]
      rfl
  rw [chunkRows, h]
  dsimp only
  rw [hdict, hrows]

/-- Saving and loading one chunk changes nothing. -/
theorem dump_row {chunk : TextChunk} (h : chunk.taskId = taskId) : (chunk.row taskId).dump = chunk.dump := by
  subst h; rfl

/-- The bucket of an operation holds its rows in the order of the list. -/
theorem bucketChunksByOperation_ok (env : Env) {rows : List TextChunkRow}
    (h : ∀ row ∈ rows, (sourceTypeToOperation row.sourceType).isSome = true) :
    ∃ buckets, bucketChunksByOperation env rows = .ok buckets ∧ ∀ operation, buckets.getD operation [] =
      rows.filter fun row => sourceTypeToOperation row.sourceType = some operation := by
  have key : ∀ (rows : List TextChunkRow) (b : Dict Operation (List TextChunkRow)),
      (∀ row ∈ rows, (sourceTypeToOperation row.sourceType).isSome = true) →
      ∃ buckets, rows.foldlM (bucketChunk env) b = .ok buckets ∧ ∀ operation, buckets.getD operation [] =
        b.getD operation [] ++ rows.filter fun row => sourceTypeToOperation row.sourceType = some operation := by
    intro rows
    induction rows with
    | nil => exact fun b _ => ⟨b, rfl, fun _ => by simp⟩
    | cons row rows ih =>
      intro b hr
      obtain ⟨op, hop⟩ := Option.isSome_iff_exists.mp (hr row List.mem_cons_self)
      have hstep : bucketChunk env b row = .ok (b.set op (b.getD op [] ++ [row])) := by
        rw [bucketChunk, hop]
      obtain ⟨buckets, h1, h2⟩ := ih (b.set op (b.getD op [] ++ [row]))
        fun r hm => hr r (List.mem_cons_of_mem _ hm)
      refine ⟨buckets, by rw [List.foldlM_cons, hstep]; exact h1, fun operation => ?_⟩
      rw [h2 operation]
      by_cases he : operation = op
      · subst he
        simp [Dict.getD_eq, hop]
      · have he' : ¬ op = operation := Ne.symm he
        simp [Dict.getD_eq, hop, he, he']
  obtain ⟨buckets, h1, h2⟩ := key rows ∅ h
  exact ⟨buckets, h1, fun operation => by rw [h2 operation]; simp [Dict.getD_eq]⟩

/-- The reloaded chunks of an operation are the dumps of its rows, in the order of the ids. -/
theorem reloadChunks_ok (env : Env) {table : ChunkTable} (operation : Operation)
    (h : ∀ row ∈ listChunkRows table taskId, (sourceTypeToOperation row.sourceType).isSome = true) :
    ∃ entry, reloadChunks env table taskId operation = .ok entry ∧ entryChunks entry =
      ((listChunkRows table taskId).filter fun row =>
        sourceTypeToOperation row.sourceType = some operation).map TextChunkRow.dump := by
  obtain ⟨buckets, hb, hget⟩ := bucketChunksByOperation_ok env h
  refine ⟨(buckets.get? operation).map contentFromChunkRows, by rw [reloadChunks, hb]; rfl, ?_⟩
  rw [← hget operation, Dict.getD_eq]
  cases buckets.get? operation <;> rfl

end

end MasResearch.L2
