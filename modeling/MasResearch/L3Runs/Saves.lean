import MasResearch.Core.LTS
import MasResearch.L2Store.ResultStore
import MasResearch.L3Runs.Timers

/-!
# Runs of saves

Starting from empty tables, `save_result` is called in any order and any number of times,
each time with a content that the operation's agent informs for the task. A call that
raises commits nothing. `Database` keeps the committed saves, newest first, beside the
tables.

The documents are what makes the saves independent: an id is one document's
(`Documents`), and of a task each ingestion operation reads one document of its own types
(`documentOf`), the one its request names (`document_id_request`).

* `sound_reachable`: every reachable store is `Sound`.
* `stored_reachable`: which operations of a task have rows in it (`rowsLeft`).
-/
namespace MasResearch.L3

open MasResearch.L1 MasResearch.L2

/-! ## Documents -/

/-- The table `documents`, as it is listed for each task: `id` is the primary key.
mirrors src/db/models.py:33-43, src/db/repos.py:88-90 -/
structure Documents where
  list : String → List Document
  owner : ∀ t, ∀ d ∈ list t, d.taskId = t
  primary : ∀ t t', ∀ d ∈ list t, ∀ d' ∈ list t', d.id = d'.id → d = d'

/-- The operation that takes a document of the type.
mirrors src/agents/payloads.py:49,58 -/
def ingestion : DocumentType → Option Operation
  | .audio => some .f1Transcribe
  | .pdf | .image => some .f2Ocr
  | .text => none

def ingestedBy (op : Operation) (d : Document) : Bool := ingestion d.documentType = some op

/-- The document an ingestion request names. -/
def documentOf (task : Task) (op : Operation) : String := (task.documents.find? (ingestedBy op)).elim "" (·.id)

/-- The documents of the tasks whose plan has the operation. -/
def Documents.owns (docs : Documents) : Owns := fun d key =>
  ∃ task : Task, task.id = key.1 ∧ task.documents = docs.list key.1 ∧ key.2 ∈ eligibleOperations task ∧
    ingests key.2 = true ∧ documentOf task key.2 = d

section

variable {docs : Documents} {task : Task} {op : Operation}

theorem ingestedBy_transcribe (d : Document) : ingestedBy .f1Transcribe d = decide (d.documentType = .audio) := by
  cases h : d.documentType <;> simp [ingestedBy, ingestion, h]

theorem ingestedBy_ocr (d : Document) :
    ingestedBy .f2Ocr d = decide (d.documentType = .pdf ∨ d.documentType = .image) := by
  cases h : d.documentType <;> simp [ingestedBy, ingestion, h]

/-- An eligible ingestion operation finds its document. -/
theorem exists_documentOf (hop : ingests op = true) (h : op ∈ eligibleOperations task) :
    ∃ d ∈ task.documents, documentOf task op = d.id ∧ ingestedBy op d = true := by
  have hany : task.documents.any (ingestedBy op) = true := by
    simp only [eligibleOperations, List.mem_filter, decide_eq_true_eq] at h
    obtain ⟨-, h1, h2⟩ := h
    cases op with
    | f1Transcribe =>
      rw [funext ingestedBy_transcribe]
      exact not_not.mp fun hn => h1 ⟨rfl, hn⟩
    | f2Ocr =>
      rw [funext ingestedBy_ocr]
      exact not_not.mp fun hn => h2 ⟨rfl, hn⟩
    | _ => cases hop
  cases hf : task.documents.find? (ingestedBy op) with
  | none =>
    obtain ⟨d, hd, hp⟩ := List.any_eq_true.mp hany
    exact absurd hp (List.find?_eq_none.mp hf d hd)
  | some d => exact ⟨d, List.mem_of_find?_eq_some hf, by rw [documentOf, hf]; rfl, List.find?_some hf⟩

/-- It is the document that the request names. -/
theorem exists_requested (hop : ingests op = true) (h : op ∈ eligibleOperations task) (results : Results) :
    ∃ d ∈ task.documents, documentOf task op = d.id ∧ ingestedBy op d = true ∧
      (buildPayload (subtaskFor task.id (eligibleOperations task) op) task results).get? "document_id" =
        some (.str d.id) ∧
      (buildPayload (subtaskFor task.id (eligibleOperations task) op) task results).get? "file_path" =
        some (.str d.filePath) := by
  obtain ⟨d, hd, -, hp⟩ := exists_documentOf hop h
  cases hf : task.documents.find? (ingestedBy op) with
  | none => exact absurd hp (List.find?_eq_none.mp hf d hd)
  | some found =>
    refine ⟨found, List.mem_of_find?_eq_some hf, by rw [documentOf, hf]; rfl, List.find?_some hf, ?_⟩
    cases op with
    | f1Transcribe =>
      have hfind : task.documents.find? (fun d => decide (d.documentType ∈ [DocumentType.audio])) = some found := by
        rw [← hf]
        congr 1
        funext d
        rw [ingestedBy_transcribe]
        simp
      simp only [buildPayload, subtaskFor, buildTranscriber, firstDocument, hfind]
      exact ⟨rfl, rfl⟩
    | f2Ocr =>
      have hfind : task.documents.find? (fun d => decide (d.documentType = .pdf ∨ d.documentType = .image)) =
          some found := by
        rw [← hf]
        congr 1
        funext d
        rw [ingestedBy_ocr]
      simp only [buildPayload, subtaskFor, buildOcr, hfind]
      exact ⟨rfl, rfl⟩
    | _ => cases hop

/-- The request of the operation carries the id of this document. -/
theorem document_id_request (hop : ingests op = true) (h : op ∈ eligibleOperations task) (results : Results) :
    (buildPayload (subtaskFor task.id (eligibleOperations task) op) task results).get? "document_id" =
      some (.str (documentOf task op)) := by
  obtain ⟨d, -, hdoc, -, hid, -⟩ := exists_requested hop h results
  rw [hdoc, hid]

/-- No document is ingested by two operations, and none for two tasks. -/
theorem Documents.biUnique (docs : Documents) : Relator.BiUnique docs.owns := by
  constructor
  · rintro d d' ⟨t, op⟩ ⟨task, -, hdocs, -, -, rfl⟩ ⟨task', -, hdocs', -, -, rfl⟩
    rw [documentOf, documentOf, hdocs, hdocs']
  · rintro d ⟨t, op⟩ ⟨t', op'⟩ ⟨task, -, hdocs, helig, hop, hd⟩ ⟨task', -, hdocs', helig', hop', hd'⟩
    obtain ⟨e, he, hid, hp⟩ := exists_documentOf hop helig
    obtain ⟨e', he', hid', hp'⟩ := exists_documentOf hop' helig'
    rw [hdocs] at he
    rw [hdocs'] at he'
    have heq : e = e' := docs.primary t t' e he e' he' (by rw [← hid, ← hid', hd, hd'])
    subst heq
    have ht : t = t' := (docs.owner t e he).symm.trans (docs.owner t' e he')
    have hops : op = op' := by
      simp only [ingestedBy, decide_eq_true_eq] at hp hp'
      exact Option.some.inj (hp.symm.trans hp')
    rw [ht, hops]

end

/-! ## The transition system -/

/-- One call of `save_result`. -/
structure Save where
  task : Task
  op : Operation
  content : Content

/-- The task has these documents, its plan the operation, and its agent informs the content. -/
structure Save.Informed (docs : Documents) (s : Save) : Prop where
  documents : s.task.documents = docs.list s.task.id
  eligible : s.op ∈ eligibleOperations s.task
  emits : Emits (documentOf s.task) s.task.id s.op s.content

/-- The tables, and the saves that were committed, newest first. -/
structure Database where
  store : ResultStore := {}
  log : List Save := []

def Database.next (env : Env) (db : Database) (s : Save) : Database :=
  match db.store.saveResult env s.task.id s.op s.content with
  | .ok store => ⟨store, s :: db.log⟩
  | .error _ => db

def saves (docs : Documents) (env : Env) : LTS Database Save :=
  LTS.guarded (fun db => db = {}) (fun _ s => s.Informed docs) (Database.next env)

/-- The contents saved for the task and the operation, newest first. -/
def contents (log : List Save) (taskId : String) (op : Operation) : List Content :=
  (log.filter fun s => s.task.id = taskId ∧ s.op = op).map (·.content)

/-- Rows are left: of chunks once a content has some, else if the newest content has items. -/
def rowsLeft (op : Operation) (contents : List Content) : Bool :=
  if ingests op then contents.any (hasItems op) else contents.head?.any (hasItems op)

section

variable {docs : Documents} {env : Env} {db : Database} {s : Save}

theorem Save.Informed.owns (h : s.Informed docs) (hop : ingests s.op = true) :
    docs.owns (documentOf s.task s.op) (s.task.id, s.op) :=
  ⟨s.task, rfl, h.documents, h.eligible, hop, rfl⟩

/-- A save commits or changes nothing. -/
theorem next_cases (env : Env) (db : Database) (s : Save) :
    (∃ store, db.store.saveResult env s.task.id s.op s.content = .ok store ∧
      db.next env s = ⟨store, s :: db.log⟩) ∨ db.next env s = db := by
  unfold Database.next
  split
  · rename_i store hs
    exact .inl ⟨store, hs, rfl⟩
  · exact .inr rfl

theorem sound_empty (owns : Owns) : ResultStore.Sound owns {} where
  chunks _ h := by cases h
  summaries _ h := by cases h
  quizzes _ h := by cases h
  links _ h := by cases h

theorem sound_inductive (docs : Documents) (env : Env) :
    (saves docs env).Inductive fun db => db.store.Sound docs.owns where
  init := by rintro _ rfl; exact sound_empty _
  step := by
    rintro db s _ hdb ⟨hs, rfl⟩
    rcases next_cases env db s with ⟨store, hsave, hn⟩ | hn
    · rw [hn]
      exact hdb.saveResult docs.biUnique hs.owns hs.emits hsave
    · rw [hn]; exact hdb

theorem sound_reachable (h : (saves docs env).Reachable db) : db.store.Sound docs.owns :=
  (sound_inductive docs env).reachable db h

theorem contents_cons_self (log : List Save) (s : Save) :
    contents (s :: log) s.task.id s.op = s.content :: contents log s.task.id s.op := by
  simp [contents]

theorem contents_cons_ne {t : String} {op : Operation} (log : List Save) (h : ¬ (t = s.task.id ∧ op = s.op)) :
    contents (s :: log) t op = contents log t op := by
  have h' : ¬ (s.task.id = t ∧ s.op = op) := fun hc => h ⟨hc.1.symm, hc.2.symm⟩
  simp [contents, h']

/-- What one more content changes. -/
theorem rowsLeft_cons (op : Operation) (content : Content) (older : List Content) :
    rowsLeft op (content :: older) =
      if ingests op = true ∧ hasItems op content = false then rowsLeft op older else hasItems op content := by
  unfold rowsLeft
  cases ingests op <;> cases hi : hasItems op content <;> simp [hi]

/-- The operations of a task with rows. -/
def Tracked (db : Database) : Prop := ∀ t op, db.store.stored t op ≠ [] ↔ rowsLeft op (contents db.log t op) = true

theorem tracked_empty : Tracked {} := by
  intro t op
  have hnone : ({} : Database).store.stored t op = [] := by cases op <;> rfl
  simp [hnone, rowsLeft, contents]

/-- One committed save. -/
theorem Tracked.save {store : ResultStore} (h : Tracked db) (hdb : db.store.Sound docs.owns) (hs : s.Informed docs)
    (hsave : db.store.saveResult env s.task.id s.op s.content = .ok store) : Tracked ⟨store, s :: db.log⟩ := by
  intro t op
  dsimp only
  by_cases hkey : t = s.task.id ∧ op = s.op
  · obtain ⟨rfl, rfl⟩ := hkey
    obtain ⟨rows, hrows, hnil⟩ := resultRows_emits env hs.emits
    rw [contents_cons_self, rowsLeft_cons, ResultStore.stored_saveResult hdb docs.biUnique hs.owns hs.emits hsave hrows]
    split
    · exact h s.task.id s.op
    · rw [ne_eq, hnil]; simp
  · rw [ResultStore.stored_saveResult_ne hdb docs.biUnique hs.owns hs.emits hsave hkey, contents_cons_ne _ hkey, ne_eq,
      List.map_eq_nil_iff]
    exact h t op

/-- **Which operations of a task have rows**, in every run of saves. -/
theorem stored_reachable (h : (saves docs env).Reachable db) : Tracked db := by
  have hind : (saves docs env).Inductive fun db => db.store.Sound docs.owns ∧ Tracked db := by
    constructor
    · rintro _ rfl
      exact ⟨sound_empty _, tracked_empty⟩
    · rintro db s _ ⟨hsound, htracked⟩ hstep
      refine ⟨(sound_inductive docs env).step db s _ hsound hstep, ?_⟩
      obtain ⟨hs, rfl⟩ := hstep
      rcases next_cases env db s with ⟨store, hsave, hn⟩ | hn
      · rw [hn]; exact htracked.save hsound hs hsave
      · rw [hn]; exact htracked
  exact (hind.reachable db h).2

end

/-- The saves of the list, one after the other. -/
def afterSaves (env : Env) (ls : List Save) : Database := ls.foldl (Database.next env) {}

theorem reachable_afterSaves (env : Env) {docs : Documents} {ls : List Save} (h : ∀ s ∈ ls, s.Informed docs) :
    (saves docs env).Reachable (afterSaves env ls) :=
  ⟨{}, ls, rfl, LTS.run_foldl (LTS.admits_of_forall ({} : Database) h)⟩

/-! ## The saves of one lecture -/

def lectureDocuments : Documents where
  list t := if t = "t1" then lecture.documents else []
  owner t d hd := by
    split at hd
    · rename_i ht
      obtain rfl := List.mem_singleton.mp hd
      exact ht.symm
    · cases hd
  primary t t' d hd d' hd' _ := by
    split at hd
    · split at hd'
      · rw [List.mem_singleton.mp hd, List.mem_singleton.mp hd']
      · cases hd'
    · cases hd

/-- A chunk as the speech recogniser returns it. -/
def speech : TextChunk where
  id := ""
  taskId := ""
  documentId := ""
  sourceType := .audio
  content := "..."
  chunkIndex := 0

/-- The transcript of a lecture with `n` chunks. -/
def transcription (n : Nat) : Save where
  task := lecture
  op := .f1Transcribe
  content := transcriberContent "t1" (documentOf lecture .f1Transcribe) "ru" (List.replicate n speech)

theorem informed_transcription (n : Nat) : (transcription n).Informed lectureDocuments where
  documents := rfl
  eligible := (by decide : Operation.f1Transcribe ∈ eligibleOperations lecture)
  emits := .f1 "ru" fun c hc => by rw [(List.mem_replicate.mp hc).2]; rfl

theorem reachable_transcriptions (env : Env) (lengths : List Nat) :
    (saves lectureDocuments env).Reachable (afterSaves env (lengths.map transcription)) := by
  refine reachable_afterSaves env fun s hs => ?_
  obtain ⟨n, -, rfl⟩ := List.mem_map.mp hs
  exact informed_transcription n

end MasResearch.L3
