import MasResearch.L2Store.ResultRows

/-!
# Assembling what the agents inform

A content is `Formed` if it has dumps of things of the promised `Quality` where its operation's
agent puts them. `assemble_payload` validates those of F3 to F6; the validators are pydantic's and
give a dumped object back (`Faithful`). `dumped` are the dumps of a payload's part, `itemsIn` those
in a content.

* `faithful_ofDumps`: the dumps can be read back.
* `assemblePayload_formed`: on formed contents it never raises, and each part of the payload
  holds what the content of its operation holds.
* `meets_assembled`: so the payload is of the promised quality.
-/
namespace MasResearch.L2

open MasResearch.L1

/-- `model_validate` undoes `model_dump`. -/
structure Validators.Faithful (v : Validators) : Prop where
  summary : ∀ s, v.summary (summaryDump s) = some s
  term : ∀ t, v.term (termDump t) = some t
  question : ∀ q, v.question (questionDump q) = some q
  citation : ∀ c, v.citation (citationDump c) = some c

/-! ## Validators that read dumps -/

section

variable {α : Type}

def readStr : Value → Option String
  | .str s => some s
  | _ => none

def readInt : Value → Option Int
  | .int n => some n
  | _ => none

def readList (read : Value → Option α) : Value → Option (List α)
  | .list xs => xs.mapM read
  | _ => none

/-- An optional field. -/
def readOrNone (read : Value → Option α) : Value → Option (Option α)
  | .none => some none
  | v => (read v).map some

/-- The member of an enumeration with this value. -/
def readEnum (value : α → String) (members : List α) : Value → Option α
  | .str s => members.find? fun m => value m = s
  | _ => none

def readSection : Value → Option SummarySection
  | .dict [("type", type), ("text", text)] => do
    return ⟨← readEnum SectionType.value [.introduction, .thesis, .conclusion] type, ← readStr text⟩
  | _ => none

def readSummary : Content → Option Summary
  | [("summary_id", summaryId), ("sections", sections), ("source_chunk_ids", chunkIds)] => do
    return ⟨← readStr summaryId, ← readList readSection sections, ← readList readStr chunkIds⟩
  | _ => none

def readTerm : Value → Option Term
  | .dict [("term", term), ("lemma", normal), ("frequency", frequency), ("category", category), ("context", context),
      ("source_chunk_id", chunkId)] => do
    return ⟨← readStr term, ← readStr normal, ← readInt frequency, ← readStr category, ← readOrNone readStr context,
      ← readOrNone readStr chunkId⟩
  | _ => none

def readQuestion : Value → Option QuizQuestion
  | .dict [("question", question), ("type", type), ("choices", choices), ("answer_idx", answerIdx),
      ("answer_indices", answerIndices), ("source_chunk_id", chunkId)] => do
    return ⟨← readStr question, ← readEnum QuestionType.value [.singleChoice, .multiChoice, .openAnswer] type,
      ← readList readStr choices, ← readOrNone readInt answerIdx, ← readOrNone (readList readInt) answerIndices,
      ← readOrNone readStr chunkId⟩
  | _ => none

def readCitation : Value → Option Citation
  | .dict [("title", title), ("authors", authors), ("year", year), ("url", url),
      ("relevance_score", .float score)] => do
    return ⟨← readStr title, ← readOrNone readStr authors, ← readOrNone readInt year, ← readOrNone readStr url, score⟩
  | _ => none

/-- `model_validate` on what `model_dump` gives. -/
def Validators.ofDumps : Validators := ⟨readSummary, readTerm, readQuestion, readCitation⟩

theorem readList_map {read : Value → Option α} {dump : α → Value} (h : ∀ a, read (dump a) = some a) (xs : List α) :
    readList read (.list (xs.map dump)) = some xs := by
  induction xs with
  | nil => rfl
  | cons a xs ih =>
    rw [readList] at ih ⊢
    rw [List.map_cons, List.mapM_cons, h, ih]
    rfl

theorem readStr_str (s : String) : readStr (.str s) = some s := rfl

theorem readInt_int (n : Int) : readInt (.int n) = some n := rfl

theorem readStrs_map (xs : List String) : readList readStr (.list (xs.map .str)) = some xs :=
  readList_map readStr_str xs

theorem readInts_map (xs : List Int) : readList readInt (.list (xs.map .int)) = some xs :=
  readList_map readInt_int xs

theorem readOrNone_orNone {read : Value → Option α} {dump : α → Value} (h : ∀ a, read (dump a) = some a)
    (hn : ∀ a, dump a ≠ .none) (x : Option α) : readOrNone read (orNone dump x) = some x := by
  cases x with
  | none => rfl
  | some a =>
    show readOrNone read (dump a) = _
    unfold readOrNone
    split
    · exact absurd ‹_› (hn a)
    · rw [h]; rfl

theorem readSection_dump (s : SummarySection) : readSection (sectionDump s) = some s := by
  obtain ⟨type, text⟩ := s
  cases type <;> simp [readSection, sectionDump, readStr, readEnum, SectionType.value]

theorem readEnum_type (type : QuestionType) : readEnum QuestionType.value [.singleChoice, .multiChoice, .openAnswer]
    (.str (QuestionType.value type)) = some type := by
  cases type <;> simp [readEnum, QuestionType.value]

theorem readStr_orNone (x : Option String) : readOrNone readStr (orNone .str x) = some x :=
  readOrNone_orNone readStr_str (fun _ => by simp) x

theorem readInt_orNone (x : Option Int) : readOrNone readInt (orNone .int x) = some x :=
  readOrNone_orNone readInt_int (fun _ => by simp) x

theorem readInts_orNone (x : Option (List Int)) :
    readOrNone (readList readInt) (orNone (fun is => .list (is.map .int)) x) = some x :=
  readOrNone_orNone readInts_map (fun _ => by simp) x

/-- **Dumps are read back.** -/
theorem faithful_ofDumps : Validators.ofDumps.Faithful where
  summary s := by
    simp only [Validators.ofDumps, readSummary, summaryDump, readList_map readSection_dump, readStrs_map]
    rfl
  term t := by
    simp only [Validators.ofDumps, readTerm, termDump, readStr_orNone]
    rfl
  question q := by
    simp only [Validators.ofDumps, readQuestion, questionDump, readEnum_type, readStrs_map, readInt_orNone,
      readInts_orNone, readStr_orNone]
    rfl
  citation c := by
    simp only [Validators.ofDumps, readCitation, citationDump, readInt_orNone, readStr_orNone]
    rfl

end

/-! ## Formed contents -/

/-- The dumps of what the payload has of an operation. -/
def dumped (payload : ResultPayload) : Operation → List Value
  | .f1Transcribe | .f2Ocr => []
  | .f3Summarize => (payload.summary.map fun s => .dict (summaryDump s)).toList
  | .f4Test => payload.quiz.map questionDump
  | .f5Terms => payload.terms.map termDump
  | .f6Recommend => payload.citations.map citationDump

/-- The dumps in the content of an operation. -/
def itemsIn : Operation → Content → List Value
  | .f1Transcribe, _ | .f2Ocr, _ => []
  | .f3Summarize, content => [.dict content]
  | .f4Test, content => listAt content "questions"
  | .f5Terms, content => listAt content "terms"
  | .f6Recommend, content => listAt content "citations"

/-- The dumps that the results map has of an operation. -/
def heldOf (taskId : String) (results : Results) (op : Operation) : List Value :=
  ((results.content? (subtaskIdFor taskId op)).map (itemsIn op)).getD []

/-- What is promised of each thing that an agent makes; of a term, whether it is linked or not. -/
structure Quality where
  summary : Summary → Prop
  question : QuizQuestion → Prop
  term : Term → Prop
  unlink : ∀ t, term t → term { t with sourceChunkId := none }
  citation : Citation → Prop

/-- The value is the dump of a thing of this quality. -/
def Quality.Item (k : Quality) : Operation → Value → Prop
  | .f1Transcribe, _ | .f2Ocr, _ => False
  | .f3Summarize, item => ∃ s, k.summary s ∧ item = .dict (summaryDump s)
  | .f4Test, item => ∃ q, k.question q ∧ item = questionDump q
  | .f5Terms, item => ∃ t, k.term t ∧ item = termDump t
  | .f6Recommend, item => ∃ c, k.citation c ∧ item = citationDump c

/-- The content holds dumps, and of things of this quality. -/
def Formed (k : Quality) : Operation → Content → Prop
  | .f1Transcribe, content | .f2Ocr, content =>
    ∃ chunks : List TextChunk, content.get? "chunks" = some (.list (chunks.map TextChunk.dump))
  | .f3Summarize, content => ∃ s, k.summary s ∧ content = summaryDump s
  | .f4Test, content => ∃ qs : List QuizQuestion, (∀ q ∈ qs, k.question q) ∧
      content.get? "questions" = some (.list (qs.map questionDump))
  | .f5Terms, content => ∃ ts : List Term, (∀ t ∈ ts, k.term t) ∧
      content.get? "terms" = some (.list (ts.map termDump))
  | .f6Recommend, content => ∃ cs : List Citation, (∀ c ∈ cs, k.citation c) ∧
      content.get? "citations" = some (.list (cs.map citationDump))

/-- Everything in the payload is of this quality. -/
structure Meets (k : Quality) (payload : ResultPayload) : Prop where
  summary : ∀ s ∈ payload.summary, k.summary s
  quiz : ∀ q ∈ payload.quiz, k.question q
  terms : ∀ t ∈ payload.terms, k.term t
  citations : ∀ c ∈ payload.citations, k.citation c

/-- Every content of the plan is formed. -/
def AllFormed (k : Quality) (plan : Plan) (results : Results) : Prop := ∀ sub ∈ plan.subtasks, ∀ content,
  results.content? sub.id = some content → Formed k sub.operation content

theorem forall_mem_map_dump {α : Type} {dump : α → Value} {P : α → Prop} {xs : List α} (h : ∀ x ∈ xs, P x) :
    ∀ item ∈ xs.map dump, ∃ x, P x ∧ item = dump x := by
  intro item hi
  obtain ⟨x, hx, rfl⟩ := List.mem_map.mp hi
  exact ⟨x, h x hx, rfl⟩

/-- The dumps in a formed content. -/
theorem Formed.items {k : Quality} {op : Operation} {content : Content} (h : Formed k op content) :
    ∀ item ∈ itemsIn op content, k.Item op item := by
  cases op with
  | f1Transcribe => exact List.forall_mem_nil _
  | f2Ocr => exact List.forall_mem_nil _
  | f3Summarize =>
    obtain ⟨s, hs, rfl⟩ := h
    exact List.forall_mem_singleton.mpr ⟨s, hs, rfl⟩
  | f4Test =>
    obtain ⟨qs, hqs, hget⟩ := h
    rw [itemsIn, listAt, hget]
    exact forall_mem_map_dump hqs
  | f5Terms =>
    obtain ⟨ts, hts, hget⟩ := h
    rw [itemsIn, listAt, hget]
    exact forall_mem_map_dump hts
  | f6Recommend =>
    obtain ⟨cs, hcs, hget⟩ := h
    rw [itemsIn, listAt, hget]
    exact forall_mem_map_dump hcs

section

variable {v : Validators} {k : Quality} {results : Results} {payload : ResultPayload} {sub : Subtask} {task : Task}

theorem validateAll_dumps {α : Type} {check : Value → Option α} {dump : α → Value} (h : ∀ a, check (dump a) = some a)
    (xs : List α) : validateAll check (some (.list (xs.map dump))) = .ok xs := by
  show (xs.map dump).mapM (fun item => (check item).elim (Except.error PyError.validationError) Except.ok) = .ok xs
  rw [mapM_ok_iff, List.forall₂_map_left_iff]
  exact List.forall₂_same.mpr fun a _ => by rw [h a]; rfl

/-- A dump that can be validated again tells the objects apart. -/
theorem dump_inj {α β : Type} {check : β → Option α} {dump : α → β} (h : ∀ a, check (dump a) = some a) :
    Function.Injective dump := fun a b hab => by
  have := h b
  rw [← hab, h a] at this
  exact Option.some.inj this

theorem dumps_inj {α β : Type} {check : β → Option α} {dump : α → β} (h : ∀ a, check (dump a) = some a) {xs ys : List α}
    (he : xs.map dump = ys.map dump) : xs = ys := List.map_injective_iff.mpr (dump_inj h) he

theorem mem_subtask {op : Operation} (h : sub ∈ (buildPlan task).subtasks) (hop : sub.operation = op) :
    sub.id = subtaskIdFor task.id op := by
  obtain ⟨op', -, rfl⟩ := mem_buildPlan.mp h
  rw [← hop]
  rfl

/-- One round on a formed content. -/
theorem assembleSubtask_formed (hv : v.Faithful) (payload : ResultPayload) {content : Content}
    (hc : results.content? sub.id = some content) (h : Formed k sub.operation content) :
    ∃ payload', assembleSubtask v results payload sub = .ok payload' ∧
      dumped payload' sub.operation = itemsIn sub.operation content ∧
      ∀ op ≠ sub.operation, dumped payload' op = dumped payload op := by
  unfold assembleSubtask
  rw [hc]
  dsimp only
  generalize sub.operation = op at h ⊢
  cases op with
  | f1Transcribe => exact ⟨payload, rfl, rfl, fun _ _ => rfl⟩
  | f2Ocr => exact ⟨payload, rfl, rfl, fun _ _ => rfl⟩
  | f3Summarize =>
    obtain ⟨s, -, rfl⟩ := h
    refine ⟨{ payload with summary := some s }, by rw [hv.summary]; rfl, rfl, fun op hop => ?_⟩
    cases op <;> first | rfl | exact absurd rfl hop
  | f4Test =>
    obtain ⟨qs, -, hget⟩ := h
    refine ⟨{ payload with quiz := qs }, by rw [hget, validateAll_dumps hv.question]; rfl, ?_, fun op hop => ?_⟩
    · rw [itemsIn, listAt, hget]; rfl
    · cases op <;> first | rfl | exact absurd rfl hop
  | f5Terms =>
    obtain ⟨ts, -, hget⟩ := h
    refine ⟨{ payload with terms := ts }, by rw [hget, validateAll_dumps hv.term]; rfl, ?_, fun op hop => ?_⟩
    · rw [itemsIn, listAt, hget]; rfl
    · cases op <;> first | rfl | exact absurd rfl hop
  | f6Recommend =>
    obtain ⟨cs, -, hget⟩ := h
    refine ⟨{ payload with citations := cs }, by rw [hget, validateAll_dumps hv.citation]; rfl, ?_, fun op hop => ?_⟩
    · rw [itemsIn, listAt, hget]; rfl
    · cases op <;> first | rfl | exact absurd rfl hop

/-- The parts of the operations that are done hold what the results hold. -/
def Gathered (taskId : String) (results : Results) (done : List Subtask) (payload : ResultPayload) : Prop :=
  ∀ op, dumped payload op = if op ∈ done.map Subtask.operation then heldOf taskId results op else []

theorem Gathered.round (hv : v.Faithful) (h : AllFormed k (buildPlan task) results)
    (hs : sub ∈ (buildPlan task).subtasks) {done : List Subtask}
    (hf : Gathered task.id results done payload) :
    ∃ payload', assembleSubtask v results payload sub = .ok payload' ∧
      Gathered task.id results (done ++ [sub]) payload' := by
  have hid := mem_subtask hs rfl
  cases hc : results.content? sub.id with
  | none =>
    refine ⟨payload, by rw [assembleSubtask, hc], fun op => ?_⟩
    by_cases hop : op = sub.operation
    · subst hop
      have hnil : heldOf task.id results sub.operation = [] := by rw [heldOf, ← hid, hc]; rfl
      rw [hf, hnil, ite_self, ite_self]
    · rw [hf]
      simp [hop]
  | some content =>
    obtain ⟨payload', hok, hsame, hother⟩ := assembleSubtask_formed hv payload hc (h sub hs content hc)
    refine ⟨payload', hok, fun op => ?_⟩
    by_cases hop : op = sub.operation
    · subst hop
      rw [hsame, if_pos (by simp), heldOf, ← hid, hc]
      rfl
    · rw [hother op hop, hf]
      simp [hop]

theorem Gathered.rounds (hv : v.Faithful) (h : AllFormed k (buildPlan task) results) : ∀ (todo done : List Subtask)
    (payload : ResultPayload), (∀ sub ∈ todo, sub ∈ (buildPlan task).subtasks) → Gathered task.id results done payload →
    ∃ payload', todo.foldlM (assembleSubtask v results) payload = .ok payload' ∧
      Gathered task.id results (done ++ todo) payload'
  | [], done, payload, _, hf => ⟨payload, rfl, by rwa [List.append_nil]⟩
  | sub :: todo, done, payload, hs, hf => by
    rw [List.forall_mem_cons] at hs
    obtain ⟨payload1, hok, hf1⟩ := hf.round hv h hs.1
    obtain ⟨payload', hok', hf'⟩ := Gathered.rounds hv h todo (done ++ [sub]) payload1 hs.2 hf1
    refine ⟨payload', by rw [List.foldlM_cons, hok]; exact hok', ?_⟩
    rwa [List.append_assoc] at hf'

/-- **The payload of formed contents.** -/
theorem assemblePayload_formed (hv : v.Faithful) (h : AllFormed k (buildPlan task) results) :
    ∃ payload, assemblePayload v (buildPlan task) results = .ok payload ∧
      ∀ op, dumped payload op = if op ∈ eligibleOperations task then heldOf task.id results op else [] := by
  obtain ⟨payload, hok, hf⟩ := Gathered.rounds hv h (buildPlan task).subtasks [] {} (fun _ hs => hs)
    fun op => by cases op <;> rfl
  refine ⟨payload, hok, fun op => ?_⟩
  rw [hf, List.nil_append]
  simp [buildPlan, List.map_map, Function.comp_def, subtaskFor]

theorem forall_of_dumps {α : Type} {check : Value → Option α} {dump : α → Value} (h : ∀ a, check (dump a) = some a)
    {P : α → Prop} {xs : List α} (hd : ∀ item ∈ xs.map dump, ∃ x, P x ∧ item = dump x) : ∀ x ∈ xs, P x := by
  intro x hx
  obtain ⟨y, hy, he⟩ := hd (dump x) (List.mem_map_of_mem hx)
  rwa [dump_inj h he]

/-- **What is assembled has the quality of the contents.** -/
theorem meets_assembled (h : AllFormed k (buildPlan task) results)
    (hp : ∀ op, dumped payload op = if op ∈ eligibleOperations task then heldOf task.id results op else []) :
    Meets k payload := by
  have hitems : ∀ op, ∀ item ∈ dumped payload op, k.Item op item := by
    intro op
    rw [hp op]
    split_ifs with hop
    · rw [heldOf]
      cases hc : results.content? (subtaskIdFor task.id op) with
      | none => exact List.forall_mem_nil _
      | some content =>
        exact (h (subtaskFor task.id (eligibleOperations task) op) (mem_buildPlan.mpr ⟨op, hop, rfl⟩) content hc).items
    · exact List.forall_mem_nil _
  constructor
  case summary =>
    intro s hs
    obtain ⟨s', hs', he⟩ := hitems .f3Summarize (.dict (summaryDump s)) (by
      rw [dumped, Option.mem_def.mp hs]
      exact List.mem_singleton_self _)
    rwa [dump_inj faithful_ofDumps.summary (Value.dict.inj he)]
  case quiz => exact forall_of_dumps faithful_ofDumps.question (hitems .f4Test)
  case terms => exact forall_of_dumps faithful_ofDumps.term (hitems .f5Terms)
  case citations => exact forall_of_dumps faithful_ofDumps.citation (hitems .f6Recommend)

end

end MasResearch.L2
