import MasResearch.L2Store.Chunks

/-!
# Results as rows (`db/result_mapping.py`)

Each operation's content is encoded into the rows of one table and decoded from them
again, the columns under other names than the keys: a summary's thesis is the column
`key_points`, a term's `source_chunk_id` is `text_chunk_id`, and a term has no column
for its `context`. Columns that the encoders copy without looking hold a `Value`.

`Emits` are the contents the agents inform. Results:
* `reread_emits`: decoding the encoded rows of such a content gives it back, up to the
  `language` F1 adds.
* `assemblePayload_reloads`: the payload of a plan is the same over the reloaded
  results, also where a content without rows has no entry any more.
-/
namespace MasResearch.L2

open MasResearch.L1

/-! ## What the agents inform -/

def SectionType.value : SectionType → String
  | .introduction => "introduction"
  | .thesis => "thesis"
  | .conclusion => "conclusion"

def QuestionType.value : QuestionType → String
  | .singleChoice => "single_choice"
  | .multiChoice => "multi_choice"
  | .openAnswer => "open_answer"

/-- An optional field in a dump. -/
def orNone {α : Type} (f : α → Value) (x : Option α) : Value := x.elim .none f

/-- `section.model_dump()`. -/
def sectionDump (s : SummarySection) : Value :=
  .dict [("type", .str (SectionType.value s.type)), ("text", .str s.text)]

/-- `summary.model_dump()`. -/
def summaryDump (s : Summary) : Content :=
  [("summary_id", .str s.summaryId), ("sections", .list (s.sections.map sectionDump)),
    ("source_chunk_ids", .list (s.sourceChunkIds.map .str))]

/-- `term.model_dump()`. -/
def termDump (t : Term) : Value :=
  .dict [("term", .str t.term), ("lemma", .str t.lemma), ("frequency", .int t.frequency),
    ("category", .str t.category), ("context", orNone .str t.context),
    ("source_chunk_id", orNone .str t.sourceChunkId)]

/-- `question.model_dump()`. -/
def questionDump (q : QuizQuestion) : Value :=
  .dict [("question", .str q.question), ("type", .str (QuestionType.value q.type)),
    ("choices", .list (q.choices.map .str)), ("answer_idx", orNone .int q.answerIdx),
    ("answer_indices", orNone (fun is => .list (is.map .int)) q.answerIndices),
    ("source_chunk_id", orNone .str q.sourceChunkId)]

/-- `citation.model_dump()`. -/
def citationDump (c : Citation) : Value :=
  .dict [("title", .str c.title), ("authors", orNone .str c.authors), ("year", orNone .int c.year),
    ("url", orNone .str c.url), ("relevance_score", .float c.relevanceScore)]

/-- The content of F3's INFORM.
mirrors src/agents/summarizer.py:94-103 -/
def summarizerContent (taskId introduction keyPoints conclusions : String) (chunkIds : List String) : Content :=
  summaryDump
    { summaryId := "sum-" ++ taskId
      sections := [⟨.introduction, introduction⟩, ⟨.thesis, keyPoints⟩, ⟨.conclusion, conclusions⟩]
      sourceChunkIds := chunkIds }

/-- The content of F4's INFORM.
mirrors src/agents/test_generator.py:100-107 -/
def testGeneratorContent (taskId difficulty : String) (questions : List QuizQuestion) : Content :=
  [("quiz_id", .str ("quiz-" ++ taskId)), ("questions", .list (questions.map questionDump)),
    ("difficulty", .str difficulty)]

/-- The content of F5's INFORM.
mirrors src/agents/terminology.py:207 -/
def terminologyContent (terms : List Term) : Content := [("terms", .list (terms.map termDump))]

/-- The content of F6's INFORM.
mirrors src/agents/recommender.py:103-113 -/
def recommenderContent (citations : List Citation) : Content := [("citations", .list (citations.map citationDump))]

/-- The contents the agents inform for a task; `doc` gives the documents of the ingestion
operations. F1's adapter returns audio chunks, F2's extracted or recognised pages; F5 sets
no context. -/
inductive Emits (doc : Operation → String) (task : String) : Operation → Content → Prop
  | f1 (language : String) {chunks : List TextChunk} (h : ∀ c ∈ chunks, c.sourceType = .audio) :
      Emits doc task .f1Transcribe (transcriberContent task (doc .f1Transcribe) language chunks)
  | f2 {chunks : List TextChunk} (h : ∀ c ∈ chunks, c.sourceType = .pdfExtracted ∨ c.sourceType = .image) :
      Emits doc task .f2Ocr (ocrContent task (doc .f2Ocr) chunks)
  | f3 (introduction keyPoints conclusions : String) (chunkIds : List String) :
      Emits doc task .f3Summarize (summarizerContent task introduction keyPoints conclusions chunkIds)
  | f4 (difficulty : String) (questions : List QuizQuestion) :
      Emits doc task .f4Test (testGeneratorContent task difficulty questions)
  | f5 {terms : List Term} (h : ∀ t ∈ terms, t.context = none) : Emits doc task .f5Terms (terminologyContent terms)
  | f6 (citations : List Citation) : Emits doc task .f6Recommend (recommenderContent citations)

/-! ## Rows -/

/-- mirrors src/db/models.py:61-69 -/
structure SummaryRow where
  id : String
  taskId : String
  introduction : Value := .none
  keyPoints : Value := .none
  conclusions : Value := .none
  sourceChunkIds : Value

/-- mirrors src/db/models.py:72-81 -/
structure TermRow where
  id : String
  taskId : String
  textChunkId : Value
  term : String
  «lemma» : Value
  frequency : Value
  category : Value

/-- mirrors src/db/models.py:84-91; the server sets `created_at`, which nothing reads -/
structure QuizRow where
  id : String
  taskId : String
  questions : List Value
  difficulty : Value

/-- mirrors src/db/models.py:94-103 -/
structure CitationRow where
  id : String
  taskId : String
  title : String
  authors : Value
  year : Value
  url : Value
  relevanceScore : Value

/-! ## Encoders -/

/-- Python's truth value. -/
def Value.truthy : Value → Bool
  | .none => false
  | .bool b => b
  | .int n => n ≠ 0
  | .float q => q ≠ 0
  | .str s => s ≠ ""
  | .list xs => !xs.isEmpty
  | .dict items => !items.isEmpty

/-- `content.get(key)`, with `None` for a missing key. -/
def getValue (content : Content) (key : String) : Value := (content.get? key).getD .none

/-- `value or default`. -/
def orElse (value default : Value) : Value := if Value.truthy value then value else default

/-- `content.get(key)` if it is a list, else nothing. -/
def listAt (content : Content) (key : String) : List Value :=
  match content.get? key with
  | some (.list xs) => xs
  | _ => []

/-- One round of the loop of `summary_row`.
mirrors src/db/result_mapping.py:29-33 -/
def putSection (env : Env) (row : SummaryRow) (item : Value) : SummaryRow :=
  match Value.asDict item with
  | none => row
  | some s =>
    if env.str (getValue s "type") = "introduction" then { row with introduction := getValue s "text" }
    else if env.str (getValue s "type") = "thesis" then { row with keyPoints := getValue s "text" }
    else if env.str (getValue s "type") = "conclusion" then { row with conclusions := getValue s "text" }
    else row

/-- mirrors src/db/result_mapping.py:25-41 -/
def summaryRow (env : Env) (taskId : String) (content : Content) : SummaryRow :=
  (listAt content "sections").foldl (putSection env)
    { id := env.str (orElse (getValue content "summary_id") (.str ("sum-" ++ taskId)))
      taskId := taskId
      sourceChunkIds := getValue content "source_chunk_ids" }

/-- mirrors src/db/result_mapping.py:52-62 -/
def termRow (env : Env) (taskId : String) (index : Nat) (term : Content) : TermRow where
  id := numbered ("term-" ++ taskId) index
  taskId := taskId
  textChunkId := getValue term "source_chunk_id"
  term := env.str ((term.get? "term").getD (.str ""))
  «lemma» := getValue term "lemma"
  frequency := getValue term "frequency"
  category := getValue term "category"

/-- mirrors src/db/result_mapping.py:44-62 -/
def termRows (env : Env) (taskId : String) (content : Content) : List TermRow :=
  (listAt content "terms").zipIdx.filterMap fun item => (Value.asDict item.1).map (termRow env taskId item.2)

/-- mirrors src/db/result_mapping.py:66-73 -/
def quizRow (env : Env) (taskId : String) (content : Content) : QuizRow where
  id := env.str (orElse (getValue content "quiz_id") (.str ("quiz-" ++ taskId)))
  taskId := taskId
  questions := listAt content "questions"
  difficulty := getValue content "difficulty"

/-- mirrors src/db/result_mapping.py:84-94 -/
def citationRow (env : Env) (taskId : String) (index : Nat) (citation : Content) : CitationRow where
  id := numbered ("cit-" ++ taskId) index
  taskId := taskId
  title := env.str ((citation.get? "title").getD (.str ""))
  authors := getValue citation "authors"
  year := getValue citation "year"
  url := getValue citation "url"
  relevanceScore := getValue citation "relevance_score"

/-- mirrors src/db/result_mapping.py:76-95 -/
def citationRows (env : Env) (taskId : String) (content : Content) : List CitationRow :=
  (listAt content "citations").zipIdx.filterMap fun item =>
    (Value.asDict item.1).map (citationRow env taskId item.2)

/-! ## Decoders -/

/-- The sections of the columns that are not NULL. -/
def sectionOf (type : String) : Value → List Value
  | .none => []
  | text => [.dict [("type", .str type), ("text", text)]]

/-- mirrors src/db/result_mapping.py:139-144 -/
def contentFromSummaryRow (row : SummaryRow) : Content :=
  [("summary_id", .str row.id),
    ("sections", .list (sectionOf "introduction" row.introduction ++ sectionOf "thesis" row.keyPoints ++
      sectionOf "conclusion" row.conclusions)),
    ("source_chunk_ids", orElse row.sourceChunkIds (.list []))]

/-- mirrors src/db/result_mapping.py:150-157 -/
def TermRow.dump (row : TermRow) : Value :=
  .dict [("term", .str row.term), ("lemma", row.lemma), ("frequency", row.frequency), ("category", row.category),
    ("context", .none), ("source_chunk_id", row.textChunkId)]

/-- mirrors src/db/result_mapping.py:147-160 -/
def contentFromTermRows (rows : List TermRow) : Content := [("terms", .list (rows.map TermRow.dump))]

/-- mirrors src/db/result_mapping.py:163-164 -/
def contentFromQuizRow (row : QuizRow) : Content :=
  [("quiz_id", .str row.id), ("questions", .list row.questions), ("difficulty", row.difficulty)]

/-- mirrors src/db/result_mapping.py:170-176 -/
def CitationRow.dump (row : CitationRow) : Value :=
  .dict [("title", .str row.title), ("authors", row.authors), ("year", row.year), ("url", row.url),
    ("relevance_score", row.relevanceScore)]

/-- mirrors src/db/result_mapping.py:167-179 -/
def contentFromCitationRows (rows : List CitationRow) : Content :=
  [("citations", .list (rows.map CitationRow.dump))]

/-! ## There and back -/

/-- `content_from_X(X_row(s)(task_id, content))` for the operation's `X`. -/
def reread (env : Env) (taskId : String) (op : Operation) (content : Content) : Except PyError Content :=
  match op with
  | .f1Transcribe | .f2Ocr => (chunkRows env taskId content).map contentFromChunkRows
  | .f3Summarize => .ok (contentFromSummaryRow (summaryRow env taskId content))
  | .f4Test => .ok (contentFromQuizRow (quizRow env taskId content))
  | .f5Terms => .ok (contentFromTermRows (termRows env taskId content))
  | .f6Recommend => .ok (contentFromCitationRows (citationRows env taskId content))

/-- A content as the rows keep it: without the `language` of F1. -/
def storedContent (op : Operation) (content : Content) : Content :=
  match op with
  | .f1Transcribe => content.filter fun item => item.1 ≠ "language"
  | _ => content

section

variable (env : Env) (taskId : String)

/-- Rows made item by item, each of which decodes to its item. -/
theorem filterMap_zipIdx {α ρ : Type} {dump : α → Value} {row : Nat → Content → ρ} {back : ρ → Value} :
    ∀ (xs : List α) (n : Nat),
      (∀ x ∈ xs, ∀ i, ∃ items, Value.asDict (dump x) = some items ∧ back (row i items) = dump x) →
      (((xs.map dump).zipIdx n).filterMap fun item => (Value.asDict item.1).map (row item.2)).map back = xs.map dump
  | [], _, _ => rfl
  | x :: xs, n, h => by
    obtain ⟨items, hd, hb⟩ := h x List.mem_cons_self n
    have ih := filterMap_zipIdx xs (n + 1) fun y hy => h y (List.mem_cons_of_mem x hy)
    rw [List.map_cons, List.zipIdx_cons, List.filterMap_cons]
    simp only [hd, Option.map_some, List.map_cons, hb, ih]

theorem reread_chunks {chunks : List TextChunk} {content : Content} (hc : ∀ c ∈ chunks, c.taskId = taskId)
    (h : content.get? "chunks" = some (.list (chunks.map TextChunk.dump))) :
    (chunkRows env taskId content).map contentFromChunkRows =
      .ok [("chunks", .list (chunks.map TextChunk.dump))] := by
  have hback : (chunks.map (TextChunk.row taskId)).map TextChunkRow.dump = chunks.map TextChunk.dump := by
    rw [List.map_map]
    exact List.map_congr_left fun c hm => dump_row (hc c hm)
  rw [chunkRows_dump env taskId h, Except.map, contentFromChunkRows, hback]

theorem taskId_stamped {documentId : String} {chunks : List TextChunk} :
    ∀ c ∈ stamped taskId documentId chunks, c.taskId = taskId := by
  intro c hc
  obtain ⟨_, -, i, rfl⟩ := mem_stamped hc
  rfl

/-- A deterministic id is not empty, so the fallback is not taken. -/
theorem orElse_id (stem : String) (h : stem ≠ "") (default : Value) :
    orElse (.str (stem ++ taskId)) default = .str (stem ++ taskId) := by
  have hne : stem ++ taskId ≠ "" := fun he => h (String.append_eq_empty_iff.mp he).1
  simp [orElse, Value.truthy, hne]

theorem summaryRow_emits (introduction keyPoints conclusions : String) (chunkIds : List String) :
    summaryRow env taskId (summarizerContent taskId introduction keyPoints conclusions chunkIds) =
      { id := "sum-" ++ taskId, taskId := taskId, introduction := .str introduction, keyPoints := .str keyPoints,
        conclusions := .str conclusions, sourceChunkIds := .list (chunkIds.map .str) } := by
  have hid := orElse_id taskId "sum-" (by decide) (.str ("sum-" ++ taskId))
  show List.foldl (putSection env) { id := env.str (orElse (.str ("sum-" ++ taskId)) _), .. } _ = _
  rw [hid]
  rfl

theorem reread_summary (introduction keyPoints conclusions : String) (chunkIds : List String) :
    contentFromSummaryRow (summaryRow env taskId
      (summarizerContent taskId introduction keyPoints conclusions chunkIds)) =
        summarizerContent taskId introduction keyPoints conclusions chunkIds := by
  have hchunks : orElse (.list (chunkIds.map .str)) (.list []) = .list (chunkIds.map .str) := by
    cases chunkIds <;> rfl
  rw [summaryRow_emits, contentFromSummaryRow]
  dsimp only
  rw [hchunks]
  rfl

theorem quizRow_emits (difficulty : String) (questions : List QuizQuestion) :
    quizRow env taskId (testGeneratorContent taskId difficulty questions) =
      { id := "quiz-" ++ taskId, taskId := taskId, questions := questions.map questionDump,
        difficulty := .str difficulty } := by
  have hid := orElse_id taskId "quiz-" (by decide) (.str ("quiz-" ++ taskId))
  show QuizRow.mk (env.str (orElse (.str ("quiz-" ++ taskId)) _)) _ _ _ = _
  rw [hid]
  rfl

theorem reread_terms {terms : List Term} (h : ∀ t ∈ terms, t.context = none) :
    contentFromTermRows (termRows env taskId (terminologyContent terms)) = terminologyContent terms := by
  have hback : (termRows env taskId (terminologyContent terms)).map TermRow.dump = terms.map termDump :=
    filterMap_zipIdx terms 0 fun t ht i => ⟨_, rfl, by
      -- a term has no column for its context
      rw [termDump, h t ht]
      rfl⟩
  rw [contentFromTermRows, hback, terminologyContent]

theorem reread_citations (citations : List Citation) :
    contentFromCitationRows (citationRows env taskId (recommenderContent citations)) =
      recommenderContent citations := by
  have hback : (citationRows env taskId (recommenderContent citations)).map CitationRow.dump =
      citations.map citationDump := filterMap_zipIdx citations 0 fun c _ i => ⟨_, rfl, rfl⟩
  rw [contentFromCitationRows, hback, recommenderContent]

/-- **The row mapping is lossless** on what the agents inform. -/
theorem reread_emits {doc : Operation → String} {op : Operation} {content : Content}
    (h : Emits doc taskId op content) : reread env taskId op content = .ok (storedContent op content) := by
  cases h with
  | f1 language hc => exact reread_chunks env taskId (taskId_stamped taskId) rfl
  | f2 hc => exact reread_chunks env taskId (taskId_stamped taskId) rfl
  | f3 => exact congrArg Except.ok (reread_summary env taskId _ _ _ _)
  | f4 =>
    show Except.ok (contentFromQuizRow (quizRow env taskId _)) = _
    rw [quizRow_emits]
    rfl
  | f5 hc => exact congrArg Except.ok (reread_terms env taskId hc)
  | f6 => exact congrArg Except.ok (reread_citations env taskId _)

end

/-! ## Rows of any table -/

inductive ResultRow where
  | chunk (row : TextChunkRow)
  | summary (row : SummaryRow)
  | term (row : TermRow)
  | quiz (row : QuizRow)
  | citation (row : CitationRow)

/-- The rows `save_result` maps a content to.
mirrors src/agents/store.py:45-60 -/
def resultRows (env : Env) (taskId : String) (op : Operation) (content : Content) :
    Except PyError (List ResultRow) :=
  match op with
  | .f1Transcribe | .f2Ocr => (chunkRows env taskId content).map (List.map .chunk)
  | .f3Summarize => .ok [.summary (summaryRow env taskId content)]
  | .f4Test => .ok [.quiz (quizRow env taskId content)]
  | .f5Terms => .ok ((termRows env taskId content).map .term)
  | .f6Recommend => .ok ((citationRows env taskId content).map .citation)

theorem length_termRows (env : Env) (taskId : String) {terms : List Term} (h : ∀ t ∈ terms, t.context = none) :
    (termRows env taskId (terminologyContent terms)).length = terms.length := by
  have hback := reread_terms env taskId h
  have hlist : (termRows env taskId (terminologyContent terms)).map TermRow.dump = terms.map termDump := by
    simpa [contentFromTermRows, terminologyContent] using hback
  simpa using congrArg List.length hlist

theorem length_citationRows (env : Env) (taskId : String) (citations : List Citation) :
    (citationRows env taskId (recommenderContent citations)).length = citations.length := by
  have hback := reread_citations env taskId citations
  have hlist : (citationRows env taskId (recommenderContent citations)).map CitationRow.dump =
      citations.map citationDump := by
    simpa [contentFromCitationRows, recommenderContent] using hback
  simpa using congrArg List.length hlist

/-! ## The payload over reloaded results -/

/-- What recovery makes of a live entry: the content read back from its rows, or no entry
where it has no rows. -/
inductive ReloadsAs (env : Env) (taskId : String) (op : Operation) : Option Content → Option Content → Prop
  | missing : ReloadsAs env taskId op none none
  | entry {content content' : Content} (h : reread env taskId op content = .ok content') :
      ReloadsAs env taskId op (some content) (some content')
  | rowless {content : Content} (h : resultRows env taskId op content = .ok []) :
      ReloadsAs env taskId op (some content) none

/-- The results of the plan, reloaded. -/
def Reloads (env : Env) (plan : Plan) (live reloaded : Results) : Prop :=
  ∀ sub ∈ plan.subtasks,
    ReloadsAs env plan.taskId sub.operation (live.content? sub.id) (reloaded.content? sub.id)

/-- Every content of the plan is one its agent informs. -/
def Emitted (doc : Operation → String) (plan : Plan) (live : Results) : Prop :=
  ∀ sub ∈ plan.subtasks, ∀ content, live.content? sub.id = some content →
    Emits doc plan.taskId sub.operation content

section

variable {env : Env} {v : Validators} {doc : Operation → String} {task : Task} {live reloaded : Results}
  {sub : Subtask} {p p' : ResultPayload}

/-- A round leaves the parts of the payload alone that are not its operation's. -/
theorem assembleSubtask_frame (h : assembleSubtask v live p sub = .ok p') :
    (sub.operation ≠ .f5Terms → p'.terms = p.terms) ∧
      (sub.operation ≠ .f6Recommend → p'.citations = p.citations) := by
  unfold assembleSubtask at h
  cases hc : live.content? sub.id with
  | none => rw [hc] at h; cases h; exact ⟨fun _ => rfl, fun _ => rfl⟩
  | some content =>
    rw [hc] at h
    cases hop : sub.operation with
    | f1Transcribe => rw [hop] at h; cases h; exact ⟨fun _ => rfl, fun _ => rfl⟩
    | f2Ocr => rw [hop] at h; cases h; exact ⟨fun _ => rfl, fun _ => rfl⟩
    | f3Summarize =>
      rw [hop] at h
      cases hv : v.summary content with
      | none => simp [hv] at h
      | some s =>
        simp only [hv, Option.elim_some, Except.ok.injEq] at h
        subst h
        exact ⟨fun _ => rfl, fun _ => rfl⟩
    | f4Test =>
      rw [hop] at h
      obtain ⟨_, -, rfl⟩ := map_ok h
      exact ⟨fun _ => rfl, fun _ => rfl⟩
    | f5Terms =>
      rw [hop] at h
      obtain ⟨_, -, rfl⟩ := map_ok h
      exact ⟨fun hne => absurd rfl hne, fun _ => rfl⟩
    | f6Recommend =>
      rw [hop] at h
      obtain ⟨_, -, rfl⟩ := map_ok h
      exact ⟨fun _ => rfl, fun hne => absurd rfl hne⟩

/-- The content of the operation has no rows. -/
def Rowless (env : Env) (plan : Plan) (live : Results) (op : Operation) : Prop :=
  ∃ content, live.content? (subtaskIdFor plan.taskId op) = some content ∧
    resultRows env plan.taskId op content = .ok []

/-- Nothing came from a content without rows. -/
structure Bare (env : Env) (plan : Plan) (live : Results) (p : ResultPayload) : Prop where
  terms : Rowless env plan live .f5Terms → p.terms = []
  citations : Rowless env plan live .f6Recommend → p.citations = []

theorem rowless_terms {terms : List Term} (h : ∀ t ∈ terms, t.context = none) {taskId : String}
    (hr : resultRows env taskId .f5Terms (terminologyContent terms) = .ok []) : terms = [] := by
  have hlen := length_termRows env taskId h
  have hnil : termRows env taskId (terminologyContent terms) = [] := by
    simpa [resultRows] using hr
  rw [hnil] at hlen
  exact List.length_eq_zero_iff.mp hlen.symm

theorem rowless_citations {citations : List Citation} {taskId : String}
    (hr : resultRows env taskId .f6Recommend (recommenderContent citations) = .ok []) : citations = [] := by
  have hlen := length_citationRows env taskId citations
  have hnil : citationRows env taskId (recommenderContent citations) = [] := by
    simpa [resultRows] using hr
  rw [hnil] at hlen
  exact List.length_eq_zero_iff.mp hlen.symm

theorem Bare.step (hb : Bare env (buildPlan task) live p) (hl : Emitted doc (buildPlan task) live)
    (hs : sub ∈ (buildPlan task).subtasks) (h : assembleSubtask v live p sub = .ok p') :
    Bare env (buildPlan task) live p' := by
  obtain ⟨hterms, hcites⟩ := assembleSubtask_frame h
  obtain ⟨op, -, rfl⟩ := mem_buildPlan.mp hs
  constructor
  case terms =>
    rintro ⟨content, hc, hr⟩
    by_cases hop : op = .f5Terms
    · subst hop
      cases hl _ hs _ hc with
      | f5 hctx =>
        obtain rfl := rowless_terms hctx hr
        unfold assembleSubtask at h
        rw [show live.content? (subtaskFor task.id (eligibleOperations task) .f5Terms).id = _ from hc] at h
        cases h
        rfl
    · rw [hterms hop]
      exact hb.terms ⟨content, hc, hr⟩
  case citations =>
    rintro ⟨content, hc, hr⟩
    by_cases hop : op = .f6Recommend
    · subst hop
      cases hl _ hs _ hc with
      | f6 citations =>
        obtain rfl := rowless_citations hr
        unfold assembleSubtask at h
        rw [show live.content? (subtaskFor task.id (eligibleOperations task) .f6Recommend).id = _ from hc] at h
        cases h
        rfl
    · rw [hcites hop]
      exact hb.citations ⟨content, hc, hr⟩

/-- One round over the reloaded results does what it does over the live ones. -/
theorem assembleSubtask_reloads (hb : Bare env (buildPlan task) live p) (hl : Emitted doc (buildPlan task) live)
    (hr : Reloads env (buildPlan task) live reloaded) (hs : sub ∈ (buildPlan task).subtasks) :
    assembleSubtask v reloaded p sub = assembleSubtask v live p sub := by
  have hsub := hr sub hs
  unfold assembleSubtask
  generalize hc : live.content? sub.id = entry at hsub
  generalize hc' : reloaded.content? sub.id = entry' at hsub
  cases hsub with
  | missing => rfl
  | @entry content content' h =>
    rw [reread_emits env _ (hl sub hs content hc)] at h
    obtain rfl := Except.ok.inj h
    cases sub.operation <;> rfl
  | @rowless content h =>
    have hem := hl sub hs content hc
    obtain ⟨op, -, rfl⟩ := mem_buildPlan.mp hs
    have hbare : Rowless env (buildPlan task) live op := ⟨content, hc, h⟩
    cases op with
    | f1Transcribe => rfl
    | f2Ocr => rfl
    | f3Summarize => cases h
    | f4Test => cases h
    | f5Terms =>
      cases hem with
      | f5 hctx =>
        obtain rfl := rowless_terms hctx h
        show Except.ok p = Except.ok { p with terms := [] }
        rw [← hb.terms hbare]
    | f6Recommend =>
      cases hem with
      | f6 citations =>
        obtain rfl := rowless_citations h
        show Except.ok p = Except.ok { p with citations := [] }
        rw [← hb.citations hbare]

theorem foldlM_reloads (hl : Emitted doc (buildPlan task) live) (hr : Reloads env (buildPlan task) live reloaded) :
    ∀ (subs : List Subtask) (p : ResultPayload), (∀ sub ∈ subs, sub ∈ (buildPlan task).subtasks) →
      Bare env (buildPlan task) live p →
      subs.foldlM (assembleSubtask v reloaded) p = subs.foldlM (assembleSubtask v live) p
  | [], _, _, _ => rfl
  | sub :: subs, p, hs, hb => by
    rw [List.foldlM_cons, List.foldlM_cons, assembleSubtask_reloads hb hl hr (hs sub List.mem_cons_self)]
    cases h : assembleSubtask v live p sub with
    | error e => rfl
    | ok p' =>
      exact foldlM_reloads hl hr subs p' (fun t ht => hs t (List.mem_cons_of_mem _ ht))
        (hb.step hl (hs sub List.mem_cons_self) h)

theorem assemblePayload_reloads (v : Validators) (hl : Emitted doc (buildPlan task) live)
    (hr : Reloads env (buildPlan task) live reloaded) :
    assemblePayload v (buildPlan task) reloaded = assemblePayload v (buildPlan task) live :=
  foldlM_reloads hl hr _ {} (fun _ h => h) ⟨fun _ => rfl, fun _ => rfl⟩

end

end MasResearch.L2
