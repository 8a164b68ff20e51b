import Mathlib.Logic.Relator
import MasResearch.Core.Table
import MasResearch.L2Dispatch.Coordinator
import MasResearch.L2Store.ResultRows

/-!
# The result tables (`agents/store.py`, `db/repos.py`, `agents/recovery.py`)

`saveResult` writes an operation's rows, each table in its own way: a summary and a quiz
are merged by their id, terms and citations replace those of the task, chunks replace
those of their documents. Deleting a chunk sets the `text_chunk_id` of the terms that
refer to it to NULL, and a term may only be inserted when the chunk it refers to is there.
`loadResults` infers from the rows which operations have a result.

The rows of the tables `tasks` and `documents` are there before the first save and stay.

Results, about one save that commits:
* `stored_saveResult`: the rows of its task and operation, `stored`, are those its content
  maps to; only a content without chunks leaves them as they were.
* `stored_saveResult_ne`: all other rows stay, but for links to chunks that were deleted.
* `loadResults_ok`: recovery loads an entry exactly for the operations with rows.
-/
namespace MasResearch.L2

open MasResearch.L1

def ChunkTable.empty : ChunkTable := ⟨[], List.nodup_nil⟩

/-- The tables of `db/models.py` that hold results. -/
structure ResultStore where
  chunks : ChunkTable := .empty
  summaries : Table SummaryRow.id := .empty
  terms : Table TermRow.id := .empty
  quizzes : Table QuizRow.id := .empty
  citations : Table CitationRow.id := .empty

/-- The foreign key of `text_chunk_id` is met.
mirrors src/db/models.py:77 -/
def ChunkTable.resolves (table : ChunkTable) : Value → Bool
  | .none => true
  | .str id => table.rows.any fun row => row.id = id
  | _ => false

/-- ON DELETE SET NULL, for the chunks with the ids `gone`.
mirrors src/db/models.py:77 -/
def TermRow.unlink (gone : List String) (row : TermRow) : TermRow :=
  match row.textChunkId with
  | .str id => if id ∈ gone then { row with textChunkId := .none } else row
  | _ => row

theorem TermRow.unlink_nil (row : TermRow) : row.unlink [] = row := by
  unfold unlink
  split
  · rw [if_neg List.not_mem_nil]
  · rfl

theorem TermRow.unlink_taskId (gone : List String) (row : TermRow) : (row.unlink gone).taskId = row.taskId := by
  unfold unlink
  split
  · split <;> rfl
  · rfl

theorem TermRow.unlink_id (gone : List String) (row : TermRow) : (row.unlink gone).id = row.id := by
  unfold unlink
  split
  · split <;> rfl
  · rfl

def ResultRow.taskId : ResultRow → String
  | .chunk row => row.taskId
  | .summary row => row.taskId
  | .term row => row.taskId
  | .quiz row => row.taskId
  | .citation row => row.taskId

def ResultRow.unlink (gone : List String) : ResultRow → ResultRow
  | .term row => .term (row.unlink gone)
  | row => row

theorem ResultRow.unlink_nil (row : ResultRow) : row.unlink [] = row := by
  cases row with
  | term row => exact congrArg ResultRow.term row.unlink_nil
  | _ => rfl

/-- Only rows of terms have links. -/
theorem map_unlink {ρ : Type} {wrap : ρ → ResultRow} {gone : List String}
    (h : ∀ row, (wrap row).unlink gone = wrap row) (rows : List ρ) :
    (rows.map wrap).map (ResultRow.unlink gone) = rows.map wrap := by
  rw [List.map_map]
  exact List.map_congr_left fun row _ => h row

/-- The ids of the chunks that saving the rows deletes. -/
def displaced (table : ChunkTable) (rows : List TextChunkRow) : List String :=
  (table.rows.filter fun row => row.documentId ∈ rows.map (·.documentId)).map (·.id)

/-- One task's rows of a table. -/
def ofTask {ρ : Type} (taskId : ρ → String) (id : String) (row : ρ) : Bool := taskId row = id

/-- mirrors src/agents/store.py:48 -/
def ingests (operation : Operation) : Bool := operation = .f1Transcribe ∨ operation = .f2Ocr

namespace ResultStore

/-! ## Saving -/

/-- mirrors src/db/repos.py:103-110 -/
def saveChunks (env : Env) (st : ResultStore) (taskId : String) (content : Content) :
    Except PyError ResultStore := do
  let rows ← chunkRows env taskId content
  let chunks ← L2.saveChunks env st.chunks taskId content
  pure { st with
    chunks := chunks
    terms := st.terms.update (TermRow.unlink (displaced st.chunks rows)) (TermRow.unlink_id _) }

/-- mirrors src/db/repos.py:99-101 -/
def saveSummary (env : Env) (st : ResultStore) (taskId : String) (content : Content) : ResultStore :=
  { st with summaries := st.summaries.merge (summaryRow env taskId content) }

/-- mirrors src/db/repos.py:112-116 -/
def saveTerms (env : Env) (st : ResultStore) (taskId : String) (content : Content) :
    Except PyError ResultStore :=
  let rows := termRows env taskId content
  match (st.terms.delete (ofTask TermRow.taskId taskId)).insert? rows with
  | none => .error .external
  | some terms =>
    if rows.all fun row => st.chunks.resolves row.textChunkId then .ok { st with terms := terms }
    else .error .external

/-- mirrors src/db/repos.py:118-120 -/
def saveQuiz (env : Env) (st : ResultStore) (taskId : String) (content : Content) : ResultStore :=
  { st with quizzes := st.quizzes.merge (quizRow env taskId content) }

/-- mirrors src/db/repos.py:122-126 -/
def saveCitations (env : Env) (st : ResultStore) (taskId : String) (content : Content) :
    Except PyError ResultStore :=
  match (st.citations.delete (ofTask CitationRow.taskId taskId)).insert? (citationRows env taskId content) with
  | none => .error .external
  | some citations => .ok { st with citations := citations }

/-- What is committed; an error rolls the session back.
mirrors src/agents/store.py:45-60 -/
def saveResult (env : Env) (st : ResultStore) (taskId : String) (operation : Operation) (content : Content) :
    Except PyError ResultStore :=
  match operation with
  | .f1Transcribe | .f2Ocr => st.saveChunks env taskId content
  | .f3Summarize => .ok (st.saveSummary env taskId content)
  | .f5Terms => st.saveTerms env taskId content
  | .f4Test => .ok (st.saveQuiz env taskId content)
  | .f6Recommend => st.saveCitations env taskId content

/-! ## Loading -/

/-- `result.scalar_one_or_none()`; two rows raise. -/
def scalarOneOrNone {ρ : Type} : List ρ → Except PyError (Option ρ)
  | [] => .ok none
  | [row] => .ok (some row)
  | _ => .error .external

/-- `results[subtask_id_for(task_id, operation)] = content`, if there is one. -/
def putEntry (taskId : String) (operation : Operation) (content : Option Content)
    (results : Dict String Content) : Dict String Content :=
  content.elim results fun content => results.set (subtaskIdFor taskId operation) content

/-- `content_from_...(rows) if rows`. -/
def fromRows {ρ : Type} (decode : List ρ → Content) (rows : List ρ) : Option Content :=
  if rows.isEmpty then none else some (decode rows)

/-- mirrors src/agents/recovery.py:110-128 -/
def loadResults (env : Env) (st : ResultStore) (taskId : String) : Except PyError (Dict String Content) := do
  let chunkBuckets ← bucketChunksByOperation env (listChunkRows st.chunks taskId)
  let results : Dict String Content := chunkBuckets.entries.foldl
    (fun results bucket => putEntry taskId bucket.1 (some (contentFromChunkRows bucket.2)) results) ∅
  let summary ← scalarOneOrNone (st.summaries.select (ofTask SummaryRow.taskId taskId))
  let results := putEntry taskId .f3Summarize (summary.map contentFromSummaryRow) results
  let terms := byKey TermRow.id (st.terms.select (ofTask TermRow.taskId taskId))
  let results := putEntry taskId .f5Terms (fromRows contentFromTermRows terms) results
  let quiz ← scalarOneOrNone (st.quizzes.select (ofTask QuizRow.taskId taskId))
  let results := putEntry taskId .f4Test (quiz.map contentFromQuizRow) results
  let citations := byKey CitationRow.id (st.citations.select (ofTask CitationRow.taskId taskId))
  pure (putEntry taskId .f6Recommend (fromRows contentFromCitationRows citations) results)

/-- `load_in_flight` over the tasks in flight.
mirrors src/agents/recovery.py:99-108 -/
def loadInFlight (env : Env) (st : ResultStore) (inFlight : List Task) : Except PyError (List RecoveredTask) :=
  inFlight.mapM fun task => do
    let results ← st.loadResults env task.id
    pure ⟨task, results⟩

/-! ## The rows of an operation, of a task -/

/-- The chunks of a task that `bucket_chunks_by_operation` counts to the operation. -/
def ofOperation (taskId : String) (operation : Operation) (row : TextChunkRow) : Bool :=
  row.taskId = taskId ∧ sourceTypeToOperation row.sourceType = some operation

def storedChunks (st : ResultStore) (taskId : String) (operation : Operation) : List TextChunkRow :=
  st.chunks.rows.filter (ofOperation taskId operation)

/-- The rows stored for a task and an operation. -/
def stored (st : ResultStore) (taskId : String) : Operation → List ResultRow
  | .f1Transcribe => (st.storedChunks taskId .f1Transcribe).map .chunk
  | .f2Ocr => (st.storedChunks taskId .f2Ocr).map .chunk
  | .f3Summarize => (st.summaries.select (ofTask SummaryRow.taskId taskId)).map .summary
  | .f4Test => (st.quizzes.select (ofTask QuizRow.taskId taskId)).map .quiz
  | .f5Terms => (st.terms.select (ofTask TermRow.taskId taskId)).map .term
  | .f6Recommend => (st.citations.select (ofTask CitationRow.taskId taskId)).map .citation

/-- The rows stored for the task and the operation are exactly those the content maps to. -/
def Holds (env : Env) (st : ResultStore) (taskId : String) (op : Operation) (content : Content) : Prop :=
  ∃ rows, resultRows env taskId op content = .ok rows ∧ (st.stored taskId op).Perm rows

/-- The row is in its table. -/
def Has (st : ResultStore) : ResultRow → Prop
  | .chunk row => row ∈ st.chunks.rows
  | .summary row => row ∈ st.summaries.rows
  | .term row => row ∈ st.terms.rows
  | .quiz row => row ∈ st.quizzes.rows
  | .citation row => row ∈ st.citations.rows

/-! ## Which operations have an entry -/

section

variable {env : Env} {st : ResultStore} {taskId : String} {op op' : Operation}

theorem ingests_of_sourceType {sourceType : String} (h : sourceTypeToOperation sourceType = some op) :
    ingests op = true := by
  unfold sourceTypeToOperation at h
  split at h
  · cases h; rfl
  · split at h
    · cases h; rfl
    · cases h

theorem storedChunks_eq_nil (h : ingests op = false) : st.storedChunks taskId op = [] := by
  rw [storedChunks, List.filter_eq_nil_iff]
  intro row _ hr
  simp only [ofOperation, decide_eq_true_eq] at hr
  rw [ingests_of_sourceType hr.2] at h
  cases h

theorem mem_putEntry {content : Option Content} {d : Dict String Content} :
    subtaskIdFor taskId op ∈ putEntry taskId op' content d ↔
      (op = op' ∧ content.isSome = true) ∨ subtaskIdFor taskId op ∈ d := by
  cases content with
  | none => simp [putEntry]
  | some c =>
    simp only [putEntry, Option.elim_some, Dict.mem_set, Option.isSome_some, and_true]
    exact or_congr_left ⟨subtaskIdFor_inj, fun h => by rw [h]⟩

theorem mem_putBuckets : ∀ (buckets : List (Operation × List TextChunkRow)) (d : Dict String Content),
    subtaskIdFor taskId op ∈ buckets.foldl
        (fun results bucket => putEntry taskId bucket.1 (some (contentFromChunkRows bucket.2)) results) d ↔
      op ∈ buckets.map Prod.fst ∨ subtaskIdFor taskId op ∈ d
  | [], d => by simp
  | bucket :: buckets, d => by
    rw [List.foldl_cons, mem_putBuckets buckets, mem_putEntry]
    simp only [Option.isSome_some, and_true, List.map_cons, List.mem_cons]
    tauto

/-- An operation has a bucket exactly if it has a row. -/
theorem mem_buckets {rows : List TextChunkRow} {buckets : Dict Operation (List TextChunkRow)}
    (h : bucketChunksByOperation env rows = .ok buckets) :
    op ∈ buckets ↔ ∃ row ∈ rows, sourceTypeToOperation row.sourceType = some op := by
  have key : ∀ (rows : List TextChunkRow) (b : Dict Operation (List TextChunkRow)),
      rows.foldlM (bucketChunk env) b = .ok buckets →
        (op ∈ buckets ↔ (∃ row ∈ rows, sourceTypeToOperation row.sourceType = some op) ∨ op ∈ b) := by
    intro rows
    induction rows with
    | nil => intro b h; cases h; simp
    | cons row rows ih =>
      intro b h
      rw [List.foldlM_cons] at h
      cases hop : sourceTypeToOperation row.sourceType with
      | none =>
        simp only [bucketChunk, hop, bind, Except.bind, reduceCtorEq] at h
      | some o =>
        simp only [bucketChunk, hop] at h
        rw [ih _ h, Dict.mem_set]
        simp only [List.exists_mem_cons_iff, hop, Option.some.injEq]
        rw [eq_comm (a := op), or_assoc, or_left_comm]
  simpa using key rows ∅ h

theorem scalarOneOrNone_ok {ρ : Type} {rows : List ρ} (h : rows.length ≤ 1) :
    scalarOneOrNone rows = .ok rows.head? := by
  match rows, h with
  | [], _ => rfl
  | [_], _ => rfl

theorem isSome_head? {ρ : Type} {rows : List ρ} : rows.head?.isSome = true ↔ rows ≠ [] := by
  cases rows <;> simp

theorem isSome_fromRows {ρ : Type} {decode : List ρ → Content} {key : ρ → String} {rows : List ρ} :
    (fromRows decode (byKey key rows)).isSome = true ↔ rows ≠ [] := by
  have hnil : byKey key rows = [] ↔ rows = [] := by
    have hperm := byKey_perm key rows
    constructor
    · intro h
      rw [h] at hperm
      exact hperm.symm.eq_nil
    · rintro rfl; rfl
  simp only [fromRows, List.isEmpty_iff, hnil]
  split <;> simp_all

/-- What `_load_results` needs so as not to raise for the task. -/
structure Readable (st : ResultStore) (taskId : String) : Prop where
  chunks : ∀ row ∈ st.chunks.rows, row.taskId = taskId → (sourceTypeToOperation row.sourceType).isSome = true
  summaries : (st.summaries.select (ofTask SummaryRow.taskId taskId)).length ≤ 1
  quizzes : (st.quizzes.select (ofTask QuizRow.taskId taskId)).length ≤ 1

/-- **Recovery loads an entry exactly for the operations with rows.** -/
theorem loadResults_ok (env : Env) (h : st.Readable taskId) :
    ∃ results, st.loadResults env taskId = .ok results ∧
      ∀ op, subtaskIdFor taskId op ∈ results ↔ st.stored taskId op ≠ [] := by
  have hlist : ∀ row, row ∈ listChunkRows st.chunks taskId ↔ row ∈ st.chunks.rows ∧ row.taskId = taskId := by
    intro row
    rw [listChunkRows, (byKey_perm _ _).mem_iff, List.mem_filter, decide_eq_true_eq]
  have hknown : ∀ row ∈ listChunkRows st.chunks taskId, (sourceTypeToOperation row.sourceType).isSome = true :=
    fun row hr => h.chunks row ((hlist row).mp hr).1 ((hlist row).mp hr).2
  obtain ⟨buckets, hb, -⟩ := bucketChunksByOperation_ok env hknown
  have hchunks : ∀ op, op ∈ buckets.entries.map Prod.fst ↔ st.storedChunks taskId op ≠ [] := by
    intro op
    refine (mem_buckets hb).trans ?_
    simp only [storedChunks, ne_eq, List.filter_eq_nil_iff, ofOperation, hlist]
    simp [and_assoc]
  refine ⟨_, by rw [loadResults, hb, scalarOneOrNone_ok h.summaries, scalarOneOrNone_ok h.quizzes]; rfl, ?_⟩
  intro op
  simp only [mem_putEntry, mem_putBuckets, hchunks, Option.isSome_map, isSome_head?, isSome_fromRows]
  cases op <;> simp [stored, storedChunks_eq_nil, ingests]

/-- The tasks in flight come back with their results. -/
theorem loadInFlight_ok (env : Env) : ∀ {inFlight : List Task}, (∀ task ∈ inFlight, st.Readable task.id) →
    ∃ recovered, st.loadInFlight env inFlight = .ok recovered ∧ ∀ item, item ∈ recovered ↔
      item.task ∈ inFlight ∧ st.loadResults env item.task.id = .ok item.results
  | [], _ => ⟨[], rfl, by simp⟩
  | task :: inFlight, h => by
    obtain ⟨results, h1, -⟩ := loadResults_ok env (h task List.mem_cons_self)
    obtain ⟨recovered, h2, hmem⟩ := loadInFlight_ok env fun t ht => h t (List.mem_cons_of_mem task ht)
    rw [loadInFlight] at h2
    refine ⟨⟨task, results⟩ :: recovered, by rw [loadInFlight, List.mapM_cons, h1, h2]; rfl, fun item => ?_⟩
    rw [List.mem_cons, hmem item, List.mem_cons]
    constructor
    · rintro (rfl | ⟨ht, hr⟩)
      · exact ⟨.inl rfl, h1⟩
      · exact ⟨.inr ht, hr⟩
    · rintro ⟨rfl | ht, hr⟩
      · rw [h1] at hr
        exact .inl (by rw [Except.ok.inj hr])
      · exact .inr ⟨ht, hr⟩

end

end ResultStore

/-! ## What a content maps to -/

/-- The content has an item to make a row of; a summary and a quiz are one row whatever
they hold. -/
def hasItems (op : Operation) (content : Content) : Bool :=
  match op with
  | .f1Transcribe | .f2Ocr => !(listAt content "chunks").isEmpty
  | .f3Summarize | .f4Test => true
  | .f5Terms => !(listAt content "terms").isEmpty
  | .f6Recommend => !(listAt content "citations").isEmpty

section

variable {env : Env} {doc : Operation → String} {taskId : String} {op : Operation} {content : Content}

/-- The chunk rows of an informed content: of the task, of the document, of the operation. -/
theorem chunkRows_emits (env : Env) (h : Emits doc taskId op content) (hop : ingests op = true) :
    ∃ rows, chunkRows env taskId content = .ok rows ∧ (rows = [] ↔ hasItems op content = false) ∧
      ∀ row ∈ rows, row.taskId = taskId ∧ row.documentId = doc op ∧
        sourceTypeToOperation row.sourceType = some op := by
  have key : ∀ {documentId : String} {chunks : List TextChunk},
      (∀ c ∈ chunks, sourceTypeToOperation c.sourceType.value = some op) →
      content.get? "chunks" = some (.list ((stamped taskId documentId chunks).map TextChunk.dump)) →
      ∃ rows, chunkRows env taskId content = .ok rows ∧ (rows = [] ↔ listAt content "chunks" = []) ∧
        ∀ row ∈ rows, row.taskId = taskId ∧ row.documentId = documentId ∧
          sourceTypeToOperation row.sourceType = some op := by
    intro documentId chunks hc hget
    refine ⟨_, chunkRows_dump env taskId hget, by simp [listAt, hget], fun row hr => ?_⟩
    obtain ⟨chunk, hm, rfl⟩ := List.mem_map.mp hr
    obtain ⟨c, hmem, i, rfl⟩ := mem_stamped hm
    exact ⟨rfl, rfl, hc c hmem⟩
  cases h with
  | f1 language hc =>
    obtain ⟨rows, h1, h2, h3⟩ := key (fun c hm => by rw [hc c hm]; decide) rfl
    exact ⟨rows, h1, by simpa [hasItems] using h2, h3⟩
  | f2 hc =>
    obtain ⟨rows, h1, h2, h3⟩ := key (fun c hm => by rcases hc c hm with he | he <;> rw [he] <;> decide) rfl
    exact ⟨rows, h1, by simpa [hasItems] using h2, h3⟩
  | f3 => cases hop
  | f4 => cases hop
  | f5 => cases hop
  | f6 => cases hop

theorem taskId_termRows : ∀ row ∈ termRows env taskId content, row.taskId = taskId := by
  intro row hr
  obtain ⟨item, -, he⟩ := List.mem_filterMap.mp hr
  obtain ⟨_, -, rfl⟩ := Option.map_eq_some_iff.mp he
  rfl

theorem taskId_citationRows : ∀ row ∈ citationRows env taskId content, row.taskId = taskId := by
  intro row hr
  obtain ⟨item, -, he⟩ := List.mem_filterMap.mp hr
  obtain ⟨_, -, rfl⟩ := Option.map_eq_some_iff.mp he
  rfl

/-- Ids of one stem differ with the task. -/
theorem stem_ne (stem : String) {t t' : String} (h : t ≠ t') : stem ++ t ≠ stem ++ t' := by
  intro he
  have he := congrArg String.toList he
  simp only [String.toList_append, List.append_cancel_left_eq] at he
  exact h (String.toList_inj.mp he)

theorem rows_saveChunks {table table' : ChunkTable} {rows : List TextChunkRow}
    (hrows : chunkRows env taskId content = .ok rows) (h : saveChunks env table taskId content = .ok table') :
    table'.rows = (table.rows.filter fun row => row.documentId ∉ rows.map (·.documentId)) ++ rows := by
  simp only [saveChunks, hrows, bind, Except.bind] at h
  split at h
  · cases h; rfl
  · cases h

theorem saveChunks_commits {table : ChunkTable} {rows : List TextChunkRow}
    (hrows : chunkRows env taskId content = .ok rows)
    (h : (((table.rows.filter fun row => row.documentId ∉ rows.map (·.documentId)) ++ rows).map (·.id)).Nodup) :
    saveChunks env table taskId content = .ok ⟨_, h⟩ := by
  simp only [saveChunks, hrows, bind, Except.bind]
  exact dif_pos h

theorem resultRows_ingests {rows : List TextChunkRow} (hop : ingests op = true)
    (h : chunkRows env taskId content = .ok rows) :
    resultRows env taskId op content = .ok (rows.map .chunk) := by
  cases op with
  | f1Transcribe => simp only [resultRows, h, Except.map]
  | f2Ocr => simp only [resultRows, h, Except.map]
  | f3Summarize => cases hop
  | f4Test => cases hop
  | f5Terms => cases hop
  | f6Recommend => cases hop

/-- An informed content maps to no row exactly if it has no item. -/
theorem resultRows_emits (env : Env) (h : Emits doc taskId op content) :
    ∃ rows, resultRows env taskId op content = .ok rows ∧ (rows = [] ↔ hasItems op content = false) := by
  by_cases hop : ingests op = true
  case pos =>
    obtain ⟨rows, h1, h2, -⟩ := chunkRows_emits env h hop
    exact ⟨_, resultRows_ingests hop h1, by rw [List.map_eq_nil_iff, h2]⟩
  cases h with
  | f1 => exact absurd rfl hop
  | f2 => exact absurd rfl hop
  | f3 => exact ⟨_, rfl, by simp [hasItems]⟩
  | f4 => exact ⟨_, rfl, by simp [hasItems]⟩
  | @f5 terms hctx =>
    refine ⟨_, rfl, ?_⟩
    have hitems : hasItems .f5Terms (terminologyContent terms) = !(terms.map termDump).isEmpty := rfl
    rw [hitems, List.map_eq_nil_iff, ← List.length_eq_zero_iff, length_termRows env taskId hctx]
    simp
  | f6 citations =>
    refine ⟨_, rfl, ?_⟩
    have hitems : hasItems .f6Recommend (recommenderContent citations) = !(citations.map citationDump).isEmpty := rfl
    rw [hitems, List.map_eq_nil_iff, ← List.length_eq_zero_iff, length_citationRows env taskId citations]
    simp

end

/-! ## One save -/

/-- Which document is ingested for which task by which operation. -/
abbrev Owns := String → String × Operation → Prop

namespace ResultStore

/-- What every save keeps: chunks belong to their document's task and operation, a task
has one id for its summary and one for its quiz, and foreign keys are met. -/
structure Sound (owns : Owns) (st : ResultStore) : Prop where
  chunks : ∀ row ∈ st.chunks.rows, ∃ op, sourceTypeToOperation row.sourceType = some op ∧
    owns row.documentId (row.taskId, op)
  summaries : ∀ row ∈ st.summaries.rows, row.id = "sum-" ++ row.taskId
  quizzes : ∀ row ∈ st.quizzes.rows, row.id = "quiz-" ++ row.taskId
  links : ∀ row ∈ st.terms.rows, st.chunks.resolves row.textChunkId = true

variable {owns : Owns} {env : Env} {doc : Operation → String} {taskId : String} {op : Operation}
  {content : Content} {st st' : ResultStore}

theorem Sound.readable (h : Sound owns st) (taskId : String) : st.Readable taskId where
  chunks row hr _ := by
    obtain ⟨op, hop, -⟩ := h.chunks row hr
    rw [hop]; rfl
  summaries := Table.length_select_le_one (k := "sum-" ++ taskId) fun row hr hp => by
    rw [h.summaries row hr, of_decide_eq_true hp]
  quizzes := Table.length_select_le_one (k := "quiz-" ++ taskId) fun row hr hp => by
    rw [h.quizzes row hr, of_decide_eq_true hp]

/-- Saving chunks replaces those of their documents and clears the links to them. -/
theorem saveChunks_ok {rows : List TextChunkRow} (hrows : chunkRows env taskId content = .ok rows)
    (h : st.saveChunks env taskId content = .ok st') :
    st'.chunks.rows = (st.chunks.rows.filter fun row => row.documentId ∉ rows.map (·.documentId)) ++ rows ∧
      st' = { st with
        chunks := st'.chunks
        terms := st.terms.update (TermRow.unlink (displaced st.chunks rows)) (TermRow.unlink_id _) } := by
  rw [saveChunks, hrows] at h
  cases hc : L2.saveChunks env st.chunks taskId content with
  | error e => rw [hc] at h; cases h
  | ok table =>
    rw [hc] at h
    cases h
    exact ⟨rows_saveChunks hrows hc, rfl⟩

/-- The chunks of the operation are those of its document. -/
theorem Sound.document_iff (h : Sound owns st) (hu : Relator.BiUnique owns) (hown : owns (doc op) (taskId, op))
    {row : TextChunkRow} (hr : row ∈ st.chunks.rows) :
    row.documentId = doc op ↔ ofOperation taskId op row = true := by
  obtain ⟨op', hop', ho⟩ := h.chunks row hr
  simp only [ofOperation, decide_eq_true_eq, hop', Option.some.injEq]
  constructor
  · intro hd
    rw [hd] at ho
    have he := hu.2 ho hown
    exact ⟨congrArg Prod.fst he, congrArg Prod.snd he⟩
  · rintro ⟨ht, rfl⟩
    rw [ht] at ho
    exact hu.1 ho hown

section

variable {rows : List TextChunkRow} (hu : Relator.BiUnique owns) (hown : owns (doc op) (taskId, op))
  (hrows : ∀ row ∈ rows, row.taskId = taskId ∧ row.documentId = doc op ∧
    sourceTypeToOperation row.sourceType = some op)

include hrows in
theorem mem_documents (hne : rows ≠ []) {d : String} : d ∈ rows.map (·.documentId) ↔ d = doc op := by
  constructor
  · intro hd
    obtain ⟨row, hr, rfl⟩ := List.mem_map.mp hd
    exact (hrows row hr).2.1
  · rintro rfl
    obtain ⟨row, hr⟩ := List.exists_mem_of_ne_nil _ hne
    exact List.mem_map.mpr ⟨row, hr, (hrows row hr).2.1⟩

include hu hown hrows in
/-- The rows of an informed content replace the operation's. -/
theorem Sound.kept (h : Sound owns st) (hne : rows ≠ []) :
    (st.chunks.rows.filter fun row => row.documentId ∉ rows.map (·.documentId)) =
      st.chunks.rows.filter fun row => !ofOperation taskId op row := by
  refine List.filter_congr fun row hr => ?_
  have hiff := (mem_documents hrows hne).trans (h.document_iff hu hown hr)
  simp [hiff]

include hu hown hrows in
theorem Sound.displaced (h : Sound owns st) (hne : rows ≠ []) :
    L2.displaced st.chunks rows = (st.storedChunks taskId op).map (·.id) := by
  rw [L2.displaced, storedChunks]
  congr 1
  refine List.filter_congr fun row hr => ?_
  have hiff := (mem_documents hrows hne).trans (h.document_iff hu hown hr)
  simp [hiff]

end

/-- The ids of the chunks that a save deletes. -/
def cleared (st : ResultStore) (taskId : String) (op : Operation) (content : Content) : List String :=
  if ingests op = true ∧ hasItems op content = true then (st.storedChunks taskId op).map (·.id) else []

/-- **The tables after a save of chunks.** -/
theorem Sound.saveChunks (h : Sound owns st) (hu : Relator.BiUnique owns) (hop : ingests op = true)
    (hown : owns (doc op) (taskId, op)) (he : Emits doc taskId op content)
    (hs : st.saveChunks env taskId content = .ok st') :
    ∃ rows, chunkRows env taskId content = .ok rows ∧
      (∀ row ∈ rows, ofOperation taskId op row = true ∧ row.documentId = doc op) ∧
      st'.chunks.rows = (if hasItems op content then st.chunks.rows.filter fun row => !ofOperation taskId op row
        else st.chunks.rows) ++ rows ∧
      (rows = [] ↔ hasItems op content = false) ∧
      st' = { st with
        chunks := st'.chunks
        terms := st.terms.update (TermRow.unlink (st.cleared taskId op content)) (TermRow.unlink_id _) } := by
  obtain ⟨rows, hrows, hnil, hall⟩ := chunkRows_emits env he hop
  obtain ⟨hchunks, heq⟩ := saveChunks_ok hrows hs
  refine ⟨rows, hrows, fun row hr => ?_, ?_, hnil, ?_⟩
  · obtain ⟨ht, hd, hsrc⟩ := hall row hr
    exact ⟨by simp [ofOperation, ht, hsrc], hd⟩
  · rw [hchunks]
    congr 1
    cases hi : hasItems op content with
    | true =>
      have hne : rows ≠ [] := fun h0 => by rw [hnil.mp h0] at hi; cases hi
      rw [if_pos rfl, h.kept hu hown hall hne]
    | false => simp [hnil.mpr hi]
  · have hgone : L2.displaced st.chunks rows = st.cleared taskId op content := by
      cases hi : hasItems op content with
      | true =>
        have hne : rows ≠ [] := fun h0 => by rw [hnil.mp h0] at hi; cases hi
        rw [cleared, if_pos ⟨hop, hi⟩, h.displaced hu hown hall hne]
      | false => simp [cleared, hi, L2.displaced, hnil.mpr hi]
    rw [← hgone]
    exact heq

theorem saveResult_ingests (hop : ingests op = true) :
    st.saveResult env taskId op content = st.saveChunks env taskId content := by
  cases op <;> first | rfl | cases hop

theorem stored_ingests (hop : ingests op = true) : st.stored taskId op = (st.storedChunks taskId op).map .chunk := by
  cases op <;> first | rfl | cases hop

theorem saveTerms_ok (h : st.saveTerms env taskId content = .ok st') :
    ∃ terms, (st.terms.delete (ofTask TermRow.taskId taskId)).insert? (termRows env taskId content) = some terms ∧
      (∀ row ∈ termRows env taskId content, st.chunks.resolves row.textChunkId = true) ∧
      st' = { st with terms := terms } := by
  simp only [saveTerms] at h
  split at h
  · cases h
  rename_i terms hins
  split at h
  · rename_i hlinks
    cases h
    exact ⟨terms, hins, List.all_eq_true.mp hlinks, rfl⟩
  · cases h

theorem saveCitations_ok (h : st.saveCitations env taskId content = .ok st') :
    ∃ citations, (st.citations.delete (ofTask CitationRow.taskId taskId)).insert? (citationRows env taskId content) =
      some citations ∧ st' = { st with citations := citations } := by
  simp only [saveCitations] at h
  split at h
  · cases h
  · rename_i citations hins
    cases h
    exact ⟨citations, hins, rfl⟩

/-! ### The saved operation -/

theorem storedChunks_saved (h : Sound owns st) (hu : Relator.BiUnique owns) (hop : ingests op = true)
    (hown : owns (doc op) (taskId, op)) (he : Emits doc taskId op content)
    (hs : st.saveChunks env taskId content = .ok st') :
    ∃ rows, chunkRows env taskId content = .ok rows ∧ st'.storedChunks taskId op =
      if hasItems op content then rows else st.storedChunks taskId op := by
  obtain ⟨rows, hrows, hall, hchunks, hnil, -⟩ := h.saveChunks hu hop hown he hs
  refine ⟨rows, hrows, ?_⟩
  have hown' : rows.filter (ofOperation taskId op) = rows := List.filter_eq_self.mpr fun row hr => (hall row hr).1
  rw [storedChunks, hchunks, List.filter_append, hown']
  cases hi : hasItems op content with
  | true =>
    rw [if_pos rfl, if_pos rfl, List.filter_filter]
    simp
  | false =>
    rw [if_neg (by simp), if_neg (by simp), hnil.mpr hi, List.append_nil]
    rfl

/-- **What a save leaves of its own operation.** -/
theorem stored_saveResult (h : Sound owns st) (hu : Relator.BiUnique owns)
    (hown : ingests op = true → owns (doc op) (taskId, op)) (he : Emits doc taskId op content)
    (hs : st.saveResult env taskId op content = .ok st') {rows : List ResultRow}
    (hrows : resultRows env taskId op content = .ok rows) :
    st'.stored taskId op = if ingests op = true ∧ hasItems op content = false then st.stored taskId op else rows := by
  by_cases hop : ingests op = true
  case pos =>
    rw [saveResult_ingests hop] at hs
    obtain ⟨chunks, hchunks, hc⟩ := storedChunks_saved h hu hop (hown hop) he hs
    rw [resultRows_ingests hop hchunks] at hrows
    obtain rfl := Except.ok.inj hrows
    rw [stored_ingests hop, stored_ingests hop, hc]
    cases hi : hasItems op content <;> simp [hop]
  have hneg : ¬ (ingests op = true ∧ hasItems op content = false) := fun hc => hop hc.1
  simp only [if_neg hneg]
  cases he with
  | f1 => exact absurd rfl hop
  | f2 => exact absurd rfl hop
  | f3 introduction keyPoints conclusions chunkIds =>
    cases hs
    cases hrows
    have hrow := summaryRow_emits env taskId introduction keyPoints conclusions chunkIds
    rw [stored, saveSummary, Table.select_merge]
    · rfl
    · simp [ofTask, hrow]
    · intro row hr hp
      rw [h.summaries row hr, of_decide_eq_true hp, hrow]
  | f4 difficulty questions =>
    cases hs
    cases hrows
    have hrow := quizRow_emits env taskId difficulty questions
    rw [stored, saveQuiz, Table.select_merge]
    · rfl
    · simp [ofTask, hrow]
    · intro row hr hp
      rw [h.quizzes row hr, of_decide_eq_true hp, hrow]
  | f5 =>
    obtain ⟨terms, hins, -, rfl⟩ := saveTerms_ok hs
    cases hrows
    exact congrArg (List.map ResultRow.term)
      (Table.select_replace (fun row hr => by simp [ofTask, taskId_termRows row hr]) hins)
  | f6 =>
    obtain ⟨citations, hins, rfl⟩ := saveCitations_ok hs
    cases hrows
    exact congrArg (List.map ResultRow.citation)
      (Table.select_replace (fun row hr => by simp [ofTask, taskId_citationRows row hr]) hins)

/-! ### The other rows -/

theorem storedChunks_saved_ne (h : Sound owns st) (hu : Relator.BiUnique owns) (hop : ingests op = true)
    (hown : owns (doc op) (taskId, op)) (he : Emits doc taskId op content)
    (hs : st.saveChunks env taskId content = .ok st') {t : String} {o : Operation} (hne : ¬ (t = taskId ∧ o = op)) :
    st'.storedChunks t o = st.storedChunks t o := by
  obtain ⟨rows, -, hall, hchunks, -, -⟩ := h.saveChunks hu hop hown he hs
  have hexcl : ∀ row, ofOperation t o row = true → ofOperation taskId op row = false := by
    intro row hr
    simp only [ofOperation, decide_eq_true_eq, decide_eq_false_iff_not] at hr ⊢
    rintro ⟨ht, hop⟩
    rw [hr.1] at ht
    rw [hr.2] at hop
    exact hne ⟨ht, Option.some.inj hop⟩
  have hrows : rows.filter (ofOperation t o) = [] := List.filter_eq_nil_iff.mpr fun row hr hp => by
    have := (hall row hr).1
    rw [hexcl row hp] at this; cases this
  rw [storedChunks, hchunks, List.filter_append, hrows, List.append_nil, storedChunks]
  split
  · rw [List.filter_filter]
    refine List.filter_congr fun row _ => ?_
    cases hp : ofOperation t o row with
    | false => rfl
    | true => simp [hexcl row hp]
  · rfl

/-- **What a save leaves of everything else.** -/
theorem stored_saveResult_ne (h : Sound owns st) (hu : Relator.BiUnique owns)
    (hown : ingests op = true → owns (doc op) (taskId, op)) (he : Emits doc taskId op content)
    (hs : st.saveResult env taskId op content = .ok st') {t : String} {o : Operation} (hne : ¬ (t = taskId ∧ o = op)) :
    st'.stored t o = (st.stored t o).map (ResultRow.unlink (st.cleared taskId op content)) := by
  by_cases hop : ingests op = true
  case pos =>
    rw [saveResult_ingests hop] at hs
    have hchunks := storedChunks_saved_ne h hu hop (hown hop) he hs hne
    obtain ⟨-, -, -, -, -, heq⟩ := h.saveChunks hu hop (hown hop) he hs
    cases o with
    | f1Transcribe => rw [stored, hchunks, stored, map_unlink fun _ => rfl]
    | f2Ocr => rw [stored, hchunks, stored, map_unlink fun _ => rfl]
    | f3Summarize => rw [heq, stored, stored, map_unlink fun _ => rfl]
    | f4Test => rw [heq, stored, stored, map_unlink fun _ => rfl]
    | f6Recommend => rw [heq, stored, stored, map_unlink fun _ => rfl]
    | f5Terms =>
      rw [heq, stored, stored, Table.select_update fun r => by rw [ofTask, ofTask, TermRow.unlink_taskId], List.map_map,
        List.map_map]
      rfl
  have hnone : st.cleared taskId op content = [] := if_neg fun hc => hop hc.1
  rw [hnone, List.map_congr_left fun row _ => ResultRow.unlink_nil row, List.map_id']
  cases he with
  | f1 => exact absurd rfl hop
  | f2 => exact absurd rfl hop
  | f3 introduction keyPoints conclusions chunkIds =>
    cases hs
    cases o <;> try rfl
    have ht : taskId ≠ t := fun ht => hne ⟨ht.symm, rfl⟩
    have hrow := summaryRow_emits env taskId introduction keyPoints conclusions chunkIds
    refine congrArg (List.map ResultRow.summary)
      (Table.select_merge_ne (by simp [ofTask, hrow, ht]) fun row hr hp => ?_)
    rw [h.summaries row hr, of_decide_eq_true hp, hrow]
    exact stem_ne "sum-" (Ne.symm ht)
  | f4 difficulty questions =>
    cases hs
    cases o <;> try rfl
    have ht : taskId ≠ t := fun ht => hne ⟨ht.symm, rfl⟩
    have hrow := quizRow_emits env taskId difficulty questions
    refine congrArg (List.map ResultRow.quiz) (Table.select_merge_ne (by simp [ofTask, hrow, ht]) fun row hr hp => ?_)
    rw [h.quizzes row hr, of_decide_eq_true hp, hrow]
    exact stem_ne "quiz-" (Ne.symm ht)
  | f5 =>
    obtain ⟨terms, hins, -, rfl⟩ := saveTerms_ok hs
    cases o <;> try rfl
    have ht : t ≠ taskId := fun ht => hne ⟨ht, rfl⟩
    refine congrArg (List.map ResultRow.term) (Table.select_replace_ne (fun row hr => ?_) (fun row hp => ?_) hins)
    · simp [ofTask, taskId_termRows row hr]
    · simpa [ofTask, of_decide_eq_true hp] using ht
  | f6 =>
    obtain ⟨citations, hins, rfl⟩ := saveCitations_ok hs
    cases o <;> try rfl
    have ht : t ≠ taskId := fun ht => hne ⟨ht, rfl⟩
    refine congrArg (List.map ResultRow.citation) (Table.select_replace_ne (fun row hr => ?_) (fun row hp => ?_) hins)
    · simp [ofTask, taskId_citationRows row hr]
    · simpa [ofTask, of_decide_eq_true hp] using ht

/-! ### What every save keeps -/

/-- A link that is not cleared goes to a chunk that stays. -/
theorem resolves_unlink {table table' : ChunkTable} {gone : List String}
    (hkeep : ∀ chunk ∈ table.rows, chunk.id ∉ gone → chunk ∈ table'.rows) {row : TermRow}
    (h : table.resolves row.textChunkId = true) : table'.resolves (row.unlink gone).textChunkId = true := by
  unfold TermRow.unlink
  split
  · rename_i id hid
    split
    · rfl
    · rename_i hgone
      rw [hid] at h ⊢
      simp only [ChunkTable.resolves, List.any_eq_true, decide_eq_true_eq] at h ⊢
      obtain ⟨chunk, hc, rfl⟩ := h
      exact ⟨chunk, hkeep chunk hc hgone, rfl⟩
  · rename_i hstr
    cases hv : row.textChunkId with
    | none => rfl
    | str id => exact absurd hv (hstr id)
    | bool => rw [hv] at h; cases h
    | int => rw [hv] at h; cases h
    | float => rw [hv] at h; cases h
    | list => rw [hv] at h; cases h
    | dict => rw [hv] at h; cases h

/-- A chunk that is not cleared stays. -/
theorem mem_chunks_saved (h : Sound owns st) (hu : Relator.BiUnique owns) (hop : ingests op = true)
    (hown : owns (doc op) (taskId, op)) (he : Emits doc taskId op content)
    (hs : st.saveChunks env taskId content = .ok st') {chunk : TextChunkRow} (hc : chunk ∈ st.chunks.rows)
    (hkeep : chunk.id ∉ st.cleared taskId op content) : chunk ∈ st'.chunks.rows := by
  obtain ⟨rows, -, -, hchunks, -, -⟩ := h.saveChunks hu hop hown he hs
  rw [hchunks]
  refine List.mem_append_left rows ?_
  split
  · rename_i hi
    rw [cleared, if_pos ⟨hop, hi⟩] at hkeep
    refine List.mem_filter.mpr ⟨hc, ?_⟩
    by_contra hp
    exact hkeep (List.mem_map.mpr ⟨chunk, List.mem_filter.mpr ⟨hc, by simpa using hp⟩, rfl⟩)
  · exact hc

theorem Sound.chunksSaved (h : Sound owns st) (hu : Relator.BiUnique owns) (hop : ingests op = true)
    (hown : owns (doc op) (taskId, op)) (he : Emits doc taskId op content)
    (hs : st.saveChunks env taskId content = .ok st') : Sound owns st' := by
  obtain ⟨rows, -, hall, hchunks, -, heq⟩ := h.saveChunks hu hop hown he hs
  have hterms : st'.terms.rows = st.terms.rows.map (TermRow.unlink (st.cleared taskId op content)) := by
    rw [heq]; rfl
  constructor
  case chunks =>
    intro row hr
    rw [hchunks] at hr
    rcases List.mem_append.mp hr with hr | hr
    · refine h.chunks row ?_
      split at hr
      · exact List.mem_of_mem_filter hr
      · exact hr
    · obtain ⟨hp, hd⟩ := hall row hr
      obtain ⟨ht, hsrc⟩ := of_decide_eq_true hp
      exact ⟨op, hsrc, by rw [hd, ht]; exact hown⟩
  case summaries => rw [heq]; exact h.summaries
  case quizzes => rw [heq]; exact h.quizzes
  case links =>
    intro row hr
    rw [hterms] at hr
    obtain ⟨r, hmem, rfl⟩ := List.mem_map.mp hr
    exact resolves_unlink (fun _ hc hgone => mem_chunks_saved h hu hop hown he hs hc hgone) (h.links r hmem)

theorem Sound.saveResult (h : Sound owns st) (hu : Relator.BiUnique owns)
    (hown : ingests op = true → owns (doc op) (taskId, op)) (he : Emits doc taskId op content)
    (hs : st.saveResult env taskId op content = .ok st') : Sound owns st' := by
  by_cases hop : ingests op = true
  case pos => exact h.chunksSaved hu hop (hown hop) he (saveResult_ingests hop ▸ hs)
  cases he with
  | f1 => exact absurd rfl hop
  | f2 => exact absurd rfl hop
  | f3 introduction keyPoints conclusions chunkIds =>
    cases hs
    refine { h with summaries := fun row hr => ?_ }
    rcases Table.mem_merge.mp hr with rfl | ⟨hr, -⟩
    · rw [summaryRow_emits]
    · exact h.summaries row hr
  | f4 difficulty questions =>
    cases hs
    refine { h with quizzes := fun row hr => ?_ }
    rcases Table.mem_merge.mp hr with rfl | ⟨hr, -⟩
    · rw [quizRow_emits]
    · exact h.quizzes row hr
  | f5 =>
    obtain ⟨terms, hins, hlinks, rfl⟩ := saveTerms_ok hs
    refine { h with links := fun row hr => ?_ }
    have hr : row ∈ terms.rows := hr
    rw [Table.rows_insert? hins] at hr
    rcases List.mem_append.mp hr with hr | hr
    · exact h.links row (List.mem_of_mem_filter hr)
    · exact hlinks row hr
  | f6 =>
    obtain ⟨citations, -, rfl⟩ := saveCitations_ok hs
    exact { h with }

end ResultStore

end MasResearch.L2
