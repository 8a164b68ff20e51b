import MasResearch.L1Domain.Payloads
import MasResearch.L2Store.TaskRows

/-!
# A recovered task may transcribe another document

`_build_transcriber` and `_build_ocr` take the first document of their kind
(src/agents/payloads.py:26-30, 57-63). After a restart the documents come from a SELECT
without ORDER BY (src/db/repos.py:88-90), and where a task has two of a kind the first one
need not be the one that was requested before. The plan is the same, as src/plan.py:55-61
asks; its ingestion requests are not.

Counterexample: two audio files, whose rows the database returns the other way round.

* `same_work_iff`: the recovered task does the same work for every order of the rows
  exactly if no requested ingestion operation has two documents to choose from.
-/
namespace MasResearch.Bugs.DocumentOrder

open MasResearch.L1 MasResearch.L2

/-- The documents an ingestion operation takes its input from. -/
def picks (op : Operation) (d : Document) : Bool :=
  match op with
  | .f1Transcribe => d.documentType = .audio
  | .f2Ocr => d.documentType = .pdf ∨ d.documentType = .image
  | _ => false

/-- The recovered task has the plan of the submitted one and the same requests to the
ingestion agents. -/
structure SameWork (task recovered : Task) : Prop where
  plan : buildPlan recovered = buildPlan task
  payload : ∀ sub ∈ (buildPlan task).subtasks, sub.operation = .f1Transcribe ∨ sub.operation = .f2Ocr →
    ∀ results, buildPayload sub recovered results = buildPayload sub task results

/-! ## The plan -/

theorem eligibleOperations_rebuilt {task : Task} (status : TaskStatus) {documents : List Document}
    (h : documents.Perm task.documents) :
    eligibleOperations (rebuilt task status documents) = eligibleOperations task := by
  have hany : ∀ p : Document → Bool, (∀ d, p (rereadDocument task.id d) = p d) →
      (documents.map (rereadDocument task.id)).any p = task.documents.any p := fun p hp => by
    rw [List.any_map, show p ∘ rereadDocument task.id = p from funext hp, h.any_eq]
  have haudio := hany (fun d => d.documentType = .audio) fun _ => rfl
  have hpdf := hany (fun d => d.documentType = .pdf ∨ d.documentType = .image) fun _ => rfl
  simp only [eligibleOperations, rebuilt, haudio, hpdf]

theorem buildPlan_rebuilt {task : Task} (status : TaskStatus) {documents : List Document}
    (h : documents.Perm task.documents) : buildPlan (rebuilt task status documents) = buildPlan task := by
  unfold buildPlan
  rw [eligibleOperations_rebuilt status h]
  rfl

/-! ## The requests -/

theorem find?_rebuilt (task : Task) (status : TaskStatus) (documents : List Document) (op : Operation) :
    (rebuilt task status documents).documents.find? (picks op) =
      (documents.find? (picks op)).map (rereadDocument task.id) := by
  have hp : picks op ∘ rereadDocument task.id = picks op := by
    funext d
    cases op <;> rfl
  rw [rebuilt, List.find?_map, hp]

/-- The request for the document that was picked. -/
def requestFor (op : Operation) (d : Document) : Content :=
  [("document_id", .str d.id), ("file_path", .str d.filePath),
    if op = .f2Ocr then ("document_type", .str d.documentType.value) else ("language", .str "ru")]

section

variable {s t : Task} {sub : Subtask} {results : Results}

theorem buildPayload_ingest (hop : sub.operation = .f1Transcribe ∨ sub.operation = .f2Ocr) :
    buildPayload sub t results =
      ((t.documents.find? (picks sub.operation)).map (requestFor sub.operation)).getD [] := by
  unfold buildPayload
  rcases hop with hop | hop
  · rw [hop, show picks .f1Transcribe = fun d => decide (d.documentType = .audio) from rfl]
    simp only [buildTranscriber, firstDocument, List.mem_singleton]
    cases t.documents.find? fun d => d.documentType = .audio <;> rfl
  · rw [hop, show picks .f2Ocr = fun d => decide (d.documentType = .pdf ∨ d.documentType = .image) from rfl]
    simp only [buildOcr]
    cases t.documents.find? fun d => d.documentType = .pdf ∨ d.documentType = .image <;> rfl

/-- A request names its document. -/
theorem id_of_payload (hop : sub.operation = .f1Transcribe ∨ sub.operation = .f2Ocr)
    (h : buildPayload sub s results = buildPayload sub t results) :
    (s.documents.find? (picks sub.operation)).map Document.id =
      (t.documents.find? (picks sub.operation)).map Document.id := by
  rw [buildPayload_ingest hop, buildPayload_ingest hop] at h
  cases hs : s.documents.find? (picks sub.operation) <;>
    cases ht : t.documents.find? (picks sub.operation) <;> simp_all [requestFor]

/-- The request reads nothing that recovery loses. -/
theorem payload_of_find? (hop : sub.operation = .f1Transcribe ∨ sub.operation = .f2Ocr) (taskId : String)
    (h : s.documents.find? (picks sub.operation) =
      (t.documents.find? (picks sub.operation)).map (rereadDocument taskId)) :
    buildPayload sub s results = buildPayload sub t results := by
  rw [buildPayload_ingest hop, buildPayload_ingest hop, h, Option.map_map]
  rfl

end

/-- An ingestion operation that has a document is planned. -/
theorem planned {task : Task} {op : Operation} (hreq : op ∈ task.requestedOutputs)
    (hdoc : ∃ d ∈ task.documents, picks op d = true) : op ∈ eligibleOperations task := by
  obtain ⟨d, hd, hp⟩ := hdoc
  have hany : task.documents.any (picks op) = true := List.any_eq_true.mpr ⟨d, hd, hp⟩
  unfold eligibleOperations
  refine List.mem_filter.mpr ⟨hreq, ?_⟩
  unfold picks at hany
  cases op with
  | f1Transcribe => simp only [hany]; simp
  | f2Ocr => simp only [hany]; simp
  | _ => simp at hp ⊢

/-! ## Every order of the rows -/

section

variable {documents documents' : Table DocumentRow.id} {task : Task}

theorem ids_nodup (hcreate : documents.insert? (documentRows task) = some documents') :
    (task.documents.map Document.id).Nodup := by
  have h := documents'.nodup
  rw [Table.rows_insert? hcreate, List.map_append] at h
  have hrows := h.of_append_right
  rwa [documentRows, List.map_map] at hrows

theorem listForTask_iff (hfresh : ∀ row ∈ documents.rows, row.taskId ≠ task.id)
    (hcreate : documents.insert? (documentRows task) = some documents') {rows : List DocumentRow} :
    ListForTask documents' task.id rows ↔ rows.Perm (documentRows task) := by
  have hmine : ∀ row ∈ documentRows task, decide (row.taskId = task.id) = true := by
    intro row hrow
    obtain ⟨d, -, rfl⟩ := List.mem_map.mp hrow
    exact decide_eq_true rfl
  unfold ListForTask
  rw [Table.select_insert? (fun row hrow => decide_eq_false (hfresh row hrow)) hmine hcreate]

/-- **When recovery rebuilds the same work.** -/
theorem same_work_iff (hfresh : ∀ row ∈ documents.rows, row.taskId ≠ task.id)
    (hcreate : documents.insert? (documentRows task) = some documents') (status : TaskStatus) :
    (∀ rows, ListForTask documents' task.id rows →
        ∃ recovered,
          taskFromRow ((TaskColumns.create task.id task.requestedOutputs).updateStatus status) rows = .ok recovered ∧
            SameWork task recovered) ↔
      ∀ op ∈ task.requestedOutputs, op = .f1Transcribe ∨ op = .f2Ocr → task.documents.countP (picks op) ≤ 1 := by
  constructor
  · intro h op hreq hop
    by_cases hdoc : ∃ d ∈ task.documents, picks op d = true
    · -- the last document first
      have hrows : (documentRows task).reverse = task.documents.reverse.map fun d =>
          DocumentRow.create d.id task.id d.documentType d.filePath d.originalName := List.map_reverse.symm
      obtain ⟨recovered, hrec, hsame⟩ := h _ ((listForTask_iff hfresh hcreate).mpr (List.reverse_perm _))
      rw [taskFromRow_create task status hrows] at hrec
      cases hrec
      have hsub := mem_buildPlan.mpr ⟨op, planned hreq hdoc, rfl⟩
      have hid := id_of_payload (s := rebuilt task status task.documents.reverse) hop (hsame.payload _ hsub hop ∅)
      rw [find?_rebuilt, Option.map_map] at hid
      rw [List.countP_eq_length_filter]
      exact length_filter_le_one_of_reverse (ids_nodup hcreate) hid
    · have hnone : ∀ d ∈ task.documents, ¬ picks op d = true := fun d hd hp => hdoc ⟨d, hd, hp⟩
      rw [List.countP_eq_zero.mpr hnone]
      omega
  · intro h rows hrows
    rw [listForTask_iff hfresh hcreate] at hrows
    obtain ⟨documents, hdocs, hperm⟩ := (congrFun (congrFun (List.eq_map_comp_perm _) rows) _).mpr hrows
    refine ⟨_, taskFromRow_create task status hdocs, buildPlan_rebuilt status hperm, fun sub hsub hop results => ?_⟩
    obtain ⟨op, hel, rfl⟩ := mem_buildPlan.mp hsub
    have hone := h op (List.mem_of_mem_filter hel) hop
    rw [List.countP_eq_length_filter] at hone
    refine payload_of_find? hop task.id ?_
    rw [find?_rebuilt]
    exact congrArg (Option.map _) (find?_perm hperm.symm hone).symm

end

/-- A task with the documents, one operation each. -/
def upload (documents : List Document) : Task where
  id := "t1"
  requestedOutputs := [.f1Transcribe, .f2Ocr]
  conversationId := "conv-t1"
  documents := documents

def audio (n : String) : Document := ⟨"doc-t1-" ++ n, "t1", .audio, "data/uploads/t1/" ++ n, none, []⟩

def slides (n : String) : Document := ⟨"doc-t1-" ++ n, "t1", .pdf, "data/uploads/t1/" ++ n, none, []⟩

/-- The documents table after the task is created in an empty one. -/
def tableOf (task : Task) (h : ((documentRows task).map DocumentRow.id).Nodup) : Table DocumentRow.id :=
  ⟨documentRows task, h⟩

theorem insert?_tableOf {task : Task} (h : ((documentRows task).map DocumentRow.id).Nodup) :
    (Table.empty : Table DocumentRow.id).insert? (documentRows task) = some (tableOf task h) :=
  dif_pos h

/-- The slides are returned first. -/
theorem same_work_iff_upload : ∃ recovered,
    taskFromRow ((TaskColumns.create "t1" [.f1Transcribe, .f2Ocr]).updateStatus .running)
        (documentRows (upload [slides "1", audio "0"])) = .ok recovered ∧
      SameWork (upload [audio "0", slides "1"]) recovered :=
  (same_work_iff (by simp [Table.empty])
    (insert?_tableOf (by decide : ((documentRows (upload [audio "0", slides "1"])).map DocumentRow.id).Nodup))
    .running).mpr (by decide) (documentRows (upload [slides "1", audio "0"])) (by unfold ListForTask; decide)

/-- **Counterexample**: two audio files. -/
theorem two_recordings : ¬ ∀ rows,
    ListForTask (tableOf (upload [audio "0", audio "1"]) (by decide)) "t1" rows →
      ∃ recovered,
        taskFromRow ((TaskColumns.create "t1" [.f1Transcribe, .f2Ocr]).updateStatus .running) rows = .ok recovered ∧
          SameWork (upload [audio "0", audio "1"]) recovered := by
  intro h
  obtain ⟨recovered, hrec, hsame⟩ := h (documentRows (upload [audio "1", audio "0"])) (by unfold ListForTask; decide)
  obtain rfl := Except.ok.inj (hrec.symm.trans (taskFromRow_create (upload [audio "1", audio "0"]) .running rfl))
  have hid := id_of_payload (.inl rfl) (hsame.payload (subtaskFor "t1" [.f1Transcribe] .f1Transcribe)
    (mem_buildPlan.mpr ⟨.f1Transcribe, by decide, rfl⟩) (.inl rfl) ∅)
  revert hid
  decide

end MasResearch.Bugs.DocumentOrder
