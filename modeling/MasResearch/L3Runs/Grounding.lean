import MasResearch.L2Agents.Grounds
import MasResearch.L3Runs.Deployment

/-!
# What an artifact is grounded in

As long as the coordinator does not crash, the results of a task fit together: each was informed
for the payload that the others give rise to. So what a client reads can be followed back to the
documents: terms and the summary to the chunks, the quiz to the summary, and nothing is
recommended for nothing.

* `Answered.exists_chunks`: the chunks are those of the ingested documents, each under an id of its own.
* `grounded_payload`: a payload assembled from results that fit together is grounded in them.
* `artifacts_grounded`: so is every artifact of a run without a crash.
-/
namespace MasResearch.L3

open MasResearch.L1 MasResearch.L2 TaskState

/-- The chunk is of the document that the operation ingests. -/
structure StampedBy (task : Task) (op : Operation) (chunk : TextChunk) : Prop where
  ingests : ingests op = true
  eligible : op ∈ eligibleOperations task
  taskId : chunk.taskId = task.id
  documentId : chunk.documentId = documentOf task op
  id : ∃ i, chunk.id = chunkId (documentOf task op) i

/-- The contents of the map were informed for the payloads that the map gives rise to. -/
structure Answered {κ σ : Type} [LinearOrder κ] (ε : Type) (w : Workers κ σ) (task : Task) (results : Results) :
    Prop where
  inPlan : InPlan task results
  informed : ∀ op ∈ eligibleOperations task, ∀ content, results.content? (subtaskIdFor task.id op) = some content →
    ∃ request : Message, request.taskId = task.id ∧
      request.content = buildPayload (subtaskFor task.id (eligibleOperations task) op) task results ∧
      w.Informed ε (operationToAgent op) request content

section

variable {κ σ ε : Type} [LinearOrder κ] {w : Workers κ σ} {task : Task} {results : Results} {op : Operation}
  {content : Content} {chunks : List TextChunk}

theorem answered_of_fits {s : TaskState} {h : List Event} (hwf : s.Wf) (hf : Fits (w.Informed ε) {} s h) :
    Answered ε w s.task s.results where
  inPlan := inPlan_of_wf hwf
  informed op hop content hc := by
    rw [content?_eq, Option.join_eq_some_iff] at hc
    have hsub : subtaskFor s.task.id (eligibleOperations s.task) op ∈ s.plan.subtasks := by
      rw [hwf.plan_eq]
      exact mem_buildPlan.mpr ⟨op, hop, rfl⟩
    rcases hf _ hsub content hc with hl | ⟨-, -, channel, before, request, t, -, htid, -, hpay, hinf⟩
    · exact hl.elim
    · exact ⟨request, htid, hpay, hinf⟩

namespace Answered

/-- A content in the map is of an operation of the plan. -/
theorem eligible (h : Answered ε w task results) (hc : results.content? (subtaskIdFor task.id op) = some content) :
    op ∈ eligibleOperations task := by
  rw [content?_eq, Option.join_eq_some_iff] at hc
  obtain ⟨sub, hs, hid⟩ := Plan.mem_ids.mp (h.inPlan _ (Dict.mem_of_get? hc))
  obtain ⟨op', hop', rfl⟩ := mem_buildPlan.mp hs
  rwa [← subtaskIdFor_inj hid]

theorem emits (h : Answered ε w task results) (hc : results.content? (subtaskIdFor task.id op) = some content) :
    Emits (documentOf task) task.id op content ∧ Formed w.quality op content := by
  obtain ⟨request, htid, hpay, hinf⟩ := h.informed op (h.eligible hc) content hc
  exact emits_informed hinf (h.eligible hc) htid hpay

end Answered

/-! ## Chunks -/

theorem ids_stamped (taskId documentId : String) (chunks : List TextChunk) :
    (stamped taskId documentId chunks).map (·.id) = (List.range chunks.length).map (chunkId documentId) := by
  refine List.ext_getElem (by simp [length_stamped]) fun i hi _ => ?_
  rw [List.length_map] at hi
  obtain ⟨c, -, hc⟩ := getElem_stamped hi
  rw [List.getElem_map, hc, List.getElem_map, List.getElem_range]
  rfl

/-- The chunks of one operation. -/
theorem Answered.entry (h : Answered ε w task results) (op : Operation) (hop : ingests op = true) :
    ∃ chunks : List TextChunk, entryChunks (results.content? (subtaskIdFor task.id op)) = chunks.map TextChunk.dump ∧
    (∀ chunk ∈ chunks, StampedBy task op chunk) ∧ (chunks.map (·.id)).Nodup := by
  cases hc : results.content? (subtaskIdFor task.id op) with
  | none => exact ⟨[], rfl, List.forall_mem_nil _, List.nodup_nil⟩
  | some content =>
    have hstamped : ∀ cs : List TextChunk,
        (∀ chunk ∈ stamped task.id (documentOf task op) cs, StampedBy task op chunk) ∧
        ((stamped task.id (documentOf task op) cs).map (·.id)).Nodup := by
      intro cs
      refine ⟨fun chunk hm => ?_, ?_⟩
      · obtain ⟨c, -, i, rfl⟩ := mem_stamped hm
        exact ⟨hop, h.eligible hc, rfl, rfl, i, rfl⟩
      · rw [ids_stamped]
        exact List.nodup_range.map fun i j he => (chunkId_inj he).2
    cases (h.emits hc).1 with
    | @f1 language cs _ => exact ⟨_, rfl, hstamped cs⟩
    | @f2 cs _ => exact ⟨_, rfl, hstamped cs⟩
    | f3 => cases hop
    | f4 => cases hop
    | f5 => cases hop
    | f6 => cases hop

/-- Two operations ingest two documents. -/
theorem documentOf_ne (hids : (task.documents.map (·.id)).Nodup) (h1 : .f1Transcribe ∈ eligibleOperations task)
    (h2 : .f2Ocr ∈ eligibleOperations task) : documentOf task .f1Transcribe ≠ documentOf task .f2Ocr := by
  obtain ⟨d, hd, hdoc, hin⟩ := exists_documentOf rfl h1
  obtain ⟨d', hd', hdoc', hin'⟩ := exists_documentOf rfl h2
  rw [hdoc, hdoc']
  intro he
  obtain rfl := List.inj_on_of_nodup_map hids hd hd' he
  rw [ingestedBy, decide_eq_true_iff] at hin hin'
  rw [hin] at hin'
  cases hin'

/-- **The chunks of a task** are those of the ingested documents, each under an id of its own. -/
theorem Answered.exists_chunks (h : Answered ε w task results) : ∃ chunks : List TextChunk,
    chunksOf results task.id = chunks.map TextChunk.dump ∧
    (∀ chunk ∈ chunks, ∃ op, StampedBy task op chunk) ∧
    ((task.documents.map (·.id)).Nodup → (chunks.map (·.id)).Nodup) := by
  obtain ⟨cs1, he1, hs1, hn1⟩ := h.entry .f1Transcribe rfl
  obtain ⟨cs2, he2, hs2, hn2⟩ := h.entry .f2Ocr rfl
  have hchunks : chunksOf results task.id = entryChunks (results.content? (subtaskIdFor task.id .f1Transcribe)) ++
      (entryChunks (results.content? (subtaskIdFor task.id .f2Ocr)) ++ []) := rfl
  refine ⟨cs1 ++ cs2, by rw [hchunks, he1, he2, List.append_nil, List.map_append], ?_, fun hids => ?_⟩
  · intro chunk hm
    rcases List.mem_append.mp hm with hm | hm
    · exact ⟨_, hs1 chunk hm⟩
    · exact ⟨_, hs2 chunk hm⟩
  · rw [List.map_append, List.nodup_append]
    refine ⟨hn1, hn2, fun a ha b hb he => ?_⟩
    obtain ⟨c1, hc1, rfl⟩ := List.mem_map.mp ha
    obtain ⟨c2, hc2, rfl⟩ := List.mem_map.mp hb
    obtain ⟨i, hi⟩ := (hs1 c1 hc1).id
    obtain ⟨j, hj⟩ := (hs2 c2 hc2).id
    exact documentOf_ne hids (hs1 c1 hc1).eligible (hs2 c2 hc2).eligible (chunkId_inj (hi ▸ hj ▸ he)).1

/-! ## What refers to them -/

theorem payload_chunks (hc : chunksOf results task.id = chunks.map TextChunk.dump) :
    (buildSummarizer task results).get? "chunks" = some (.list (chunks.map TextChunk.dump)) ∧
      (buildTerminology task results).get? "chunks" = some (.list (chunks.map TextChunk.dump)) := by
  rw [← hc]
  exact ⟨rfl, rfl⟩

namespace Answered

/-- The summary names the chunks, and one of them is not blank. -/
theorem summary (h : Answered ε w task results) (hchunks : chunksOf results task.id = chunks.map TextChunk.dump)
    (hc : results.content? (subtaskIdFor task.id .f3Summarize) = some content) :
    ∃ summary : Summary, content = summaryDump summary ∧ summary.sourceChunkIds = chunks.map (·.id) ∧
      ∃ chunk ∈ chunks, strip chunk.content.toList ≠ [] := by
  obtain ⟨request, htid, hpay, hinf⟩ := h.informed _ (h.eligible hc) content hc
  have hget : request.content.get? "chunks" = some (.list (chunks.map TextChunk.dump)) := by
    rw [hpay]
    exact (payload_chunks hchunks).1
  cases hinf with
  | summarizer llm log hrun =>
    obtain ⟨new, -, hok, -⟩ := Summarizer.logs_replied w.deps llm w.summarizer request.taskId request.content log
    cases hok _ hrun with
    | informed hsome =>
      exact ⟨_, rfl, sourceChunkIds_dumps w.str_str hget, combined_dumps w.str_str hget hsome⟩

/-- The terms are of chunks that are not blank. -/
theorem terms (h : Answered ε w task results) (hchunks : chunksOf results task.id = chunks.map TextChunk.dump)
    (hc : results.content? (subtaskIdFor task.id .f5Terms) = some content) :
    ∃ terms : List Term, content = terminologyContent terms ∧ terms.length ≤ 10 ∧
      (terms.map fun term => term.lemma).Nodup ∧
      ∀ term ∈ terms, ∃ chunk ∈ chunks, term.sourceChunkId = some chunk.id ∧ strip chunk.content.toList ≠ [] := by
  obtain ⟨request, -, hpay, hinf⟩ := h.informed _ (h.eligible hc) content hc
  have hget : request.content.get? "chunks" = some (.list (chunks.map TextChunk.dump)) := by
    rw [hpay]
    exact (payload_chunks hchunks).2
  have htop : termsTopN w.topNDefault request.content = 10 := by rw [hpay]; rfl
  cases hinf with
  | terminology extractMany hrun =>
    obtain ⟨terms, rfl, hterms⟩ := TerminologyAgent.informed (by rw [htop]; decide) hrun
    refine ⟨terms, rfl, ?_, hterms.distinct, fun term ht => ?_⟩
    · have := hterms.count
      rwa [htop] at this
    · obtain ⟨source, hs, he⟩ := hterms.attributed term ht
      obtain ⟨chunk, hchunk, rfl, hne⟩ := sources_dumps w.str_str hget hs
      exact ⟨chunk, hchunk, he, hne⟩

/-- The quiz is about the summary. -/
theorem quiz (h : Answered ε w task results)
    (hc : results.content? (subtaskIdFor task.id .f4Test) = some content) :
    ∃ questions difficulty summary, content = testGeneratorContent task.id difficulty questions ∧
      results.content? (subtaskIdFor task.id .f3Summarize) = some (summaryDump summary) ∧
      ∀ q ∈ questions, isWellFormed q = true ∧ referencesSummary w.lower q (summaryText summary) = true := by
  obtain ⟨request, htid, hpay, hinf⟩ := h.informed _ (h.eligible hc) content hc
  have hget : (request.content.get? "summary").getD .none = .dict (contentOf results task.id .f3Summarize) := by
    rw [hpay]
    rfl
  cases hinf with
  | testGenerator llm log hrun =>
    obtain ⟨questions, rfl, htext, hall⟩ := QuizAgent.grounded hrun
    rw [QuizAgent.summary, hget] at htext
    simp only [QuizAgent.summary, hget] at hall
    rw [htid]
    cases hsum : results.content? (subtaskIdFor task.id .f3Summarize) with
    | none =>
      rw [contentOf, hsum] at htext
      exact absurd rfl htext
    | some content3 =>
      obtain ⟨chunks, hchunks, -⟩ := h.exists_chunks
      obtain ⟨summary, rfl, -⟩ := h.summary hchunks hsum
      refine ⟨questions, _, summary, rfl, rfl, fun q hq => ?_⟩
      have hq := hall q hq
      rw [contentOf, hsum] at hq
      rw [← summaryToText_dump w.str_str]
      exact hq

/-- Without terms the recommender is given none. -/
theorem terms_buildRecommender
    (h : contentOf results task.id .f5Terms = [] ∨ contentOf results task.id .f5Terms = terminologyContent []) :
    (buildRecommender task results).get? "terms" = some (.list []) := by
  unfold buildRecommender
  rcases h with h | h <;> rw [h] <;> rfl

/-- What is recommended are the best papers of the corpus, and not for nothing. -/
theorem citations (h : Answered ε w task results)
    (hc : results.content? (subtaskIdFor task.id .f6Recommend) = some content) :
    ∃ citations : List Citation, content = recommenderContent citations ∧ citations.length = min 3 w.corpus.length ∧
      (∀ c ∈ citations, ∃ entry ∈ w.corpus, ∃ score, c = Recommender.citationOf entry score) ∧
      citations.Pairwise (fun c d => d.relevanceScore ≤ c.relevanceScore) ∧
      ((results.content? (subtaskIdFor task.id .f3Summarize)).isSome = true ∨
        ∃ terms, results.content? (subtaskIdFor task.id .f5Terms) = some (terminologyContent terms) ∧ terms ≠ []) := by
  obtain ⟨request, -, hpay, hinf⟩ := h.informed _ (h.eligible hc) content hc
  cases hinf with
  | recommender encode hrun =>
    have hr := Recommender.replied_handle (w.recommender encode) request.content
    rw [hrun] at hr
    cases hr with
    | @cited queryVector citations hq _ _ _ hcites =>
      have hbounds : Recommender.yearBounds (Recommender.filtersOf request.content) = (none, none) := by
        rw [hpay]
        rfl
      have hall : (w.recommender encode).eligible request.content = w.corpus := by
        refine List.filter_eq_self.mpr fun entry _ => ?_
        rw [hbounds]
        cases entry.year <;> rfl
      have htop : Recommender.topNOf request.content = 3 := by rw [hpay]; rfl
      refine ⟨citations, rfl, by rw [hcites.count, hall, htop], fun c hc => ?_, hcites.ranked, ?_⟩
      · obtain ⟨entry, he, rfl⟩ := hcites.cited c hc
        exact ⟨entry, hall ▸ he, _, rfl⟩
      · by_contra hno
        rw [not_or, Bool.not_eq_true, Option.isSome_eq_false_iff, Option.isNone_iff_eq_none] at hno
        refine hq (Recommender.RecommenderAgent.query_empty ?_ ?_)
        · rw [hpay]
          show some (Value.dict (contentOf results task.id .f3Summarize)) = _
          rw [contentOf, hno.1]
          rfl
        · rw [hpay]
          refine terms_buildRecommender ?_
          cases hterms : results.content? (subtaskIdFor task.id .f5Terms) with
          | none => exact .inl (by rw [contentOf, hterms]; rfl)
          | some content5 =>
            obtain ⟨chunks, hchunks, -⟩ := h.exists_chunks
            obtain ⟨terms, rfl, -⟩ := h.terms hchunks hterms
            have hnil : terms = [] := by
              by_contra hne
              exact hno.2 ⟨terms, hterms, hne⟩
            exact .inr (by rw [contentOf, hterms, hnil]; rfl)

end Answered

/-! ## Payloads -/

/-- What a client reads of a task can be followed back to its chunks, and they to its documents. -/
structure Grounded (w : Workers κ σ) (task : Task) (chunks : List TextChunk) (payload : ResultPayload) : Prop where
  stamped : ∀ chunk ∈ chunks, ∃ op, StampedBy task op chunk
  distinct : (task.documents.map (·.id)).Nodup → (chunks.map (·.id)).Nodup
  summary : ∀ summary ∈ payload.summary, summary.sourceChunkIds = chunks.map (·.id) ∧
    ∃ chunk ∈ chunks, strip chunk.content.toList ≠ []
  lemmas : payload.terms.length ≤ 10 ∧ (payload.terms.map fun term => term.lemma).Nodup
  terms : ∀ term ∈ payload.terms, ∃ chunk ∈ chunks, term.sourceChunkId = some chunk.id ∧
    strip chunk.content.toList ≠ []
  quiz : ∀ q ∈ payload.quiz, isWellFormed q = true ∧
    ∃ summary ∈ payload.summary, referencesSummary w.lower q (summaryText summary) = true
  cited : ∀ c ∈ payload.citations, ∃ entry ∈ w.corpus, ∃ score, c = Recommender.citationOf entry score
  ranked : payload.citations.Pairwise fun c d => d.relevanceScore ≤ c.relevanceScore
  related : payload.citations ≠ [] → payload.citations.length = min 3 w.corpus.length ∧
    (payload.summary ≠ none ∨ payload.terms ≠ [])

section

variable {v : Validators} {payload : ResultPayload}

/-- The parts of the payload are those of the results. -/
def Assembled (task : Task) (results : Results) (payload : ResultPayload) : Prop :=
  ∀ op, dumped payload op = if op ∈ eligibleOperations task then heldOf task.id results op else []

theorem Assembled.some (ha : Assembled task results payload) (h : Answered ε w task results)
    (hc : results.content? (subtaskIdFor task.id op) = some content) : dumped payload op = itemsIn op content := by
  rw [ha, if_pos (h.eligible hc), heldOf, hc]
  rfl

theorem Assembled.none (ha : Assembled task results payload)
    (hc : results.content? (subtaskIdFor task.id op) = none) : dumped payload op = [] := by
  rw [ha, heldOf, hc]
  split <;> rfl

variable (ha : Assembled task results payload) (h : Answered ε w task results) (hv : v.Faithful)
include ha h hv

theorem summary_assembled {summary : Summary}
    (hc : results.content? (subtaskIdFor task.id .f3Summarize) = some (summaryDump summary)) :
    payload.summary = some summary := by
  have hd : (payload.summary.map fun s => Value.dict (summaryDump s)).toList = [.dict (summaryDump summary)] :=
    ha.some h hc
  cases hp : payload.summary with
  | none => rw [hp] at hd; cases hd
  | some s =>
    rw [hp] at hd
    have hs := hv.summary s
    rw [Value.dict.inj (List.cons.inj hd).1, hv.summary] at hs
    exact hs.symm

theorem terms_assembled {terms : List Term}
    (hc : results.content? (subtaskIdFor task.id .f5Terms) = some (terminologyContent terms)) :
    payload.terms = terms := dumps_inj hv.term (ha.some h hc)

theorem quiz_assembled {difficulty : String} {questions : List QuizQuestion}
    (hc : results.content? (subtaskIdFor task.id .f4Test) = some (testGeneratorContent task.id difficulty questions)) :
    payload.quiz = questions := dumps_inj hv.question (ha.some h hc)

theorem citations_assembled {citations : List Citation}
    (hc : results.content? (subtaskIdFor task.id .f6Recommend) = some (recommenderContent citations)) :
    payload.citations = citations := dumps_inj hv.citation (ha.some h hc)

/-- **A payload is grounded** in results that fit together. -/
theorem grounded_payload : ∃ chunks : List TextChunk, chunksOf results task.id = chunks.map TextChunk.dump ∧
    Grounded w task chunks payload := by
  obtain ⟨chunks, hchunks, hstamped, hdistinct⟩ := h.exists_chunks
  refine ⟨chunks, hchunks, ?_⟩
  have hsummary : ∀ summary ∈ payload.summary, summary.sourceChunkIds = chunks.map (·.id) ∧
      ∃ chunk ∈ chunks, strip chunk.content.toList ≠ [] := by
    cases hc : results.content? (subtaskIdFor task.id .f3Summarize) with
    | none =>
      have hd : (payload.summary.map fun s => Value.dict (summaryDump s)).toList = [] := ha.none hc
      rw [Option.toList_eq_nil_iff, Option.map_eq_none_iff] at hd
      simp [hd]
    | some content =>
      obtain ⟨summary, rfl, hids, hblank⟩ := h.summary hchunks hc
      rw [summary_assembled ha h hv hc]
      rintro _ ⟨⟩
      exact ⟨hids, hblank⟩
  have hterms : (payload.terms.length ≤ 10 ∧ (payload.terms.map fun term => term.lemma).Nodup) ∧
      ∀ term ∈ payload.terms, ∃ chunk ∈ chunks, term.sourceChunkId = some chunk.id ∧
        strip chunk.content.toList ≠ [] := by
    cases hc : results.content? (subtaskIdFor task.id .f5Terms) with
    | none =>
      have hd : payload.terms = [] := List.map_eq_nil_iff.mp (ha.none hc)
      simp [hd]
    | some content =>
      obtain ⟨terms, rfl, hlen, hnodup, hall⟩ := h.terms hchunks hc
      rw [terms_assembled ha h hv hc]
      exact ⟨⟨hlen, hnodup⟩, hall⟩
  have hquiz : ∀ q ∈ payload.quiz, isWellFormed q = true ∧
      ∃ summary ∈ payload.summary, referencesSummary w.lower q (summaryText summary) = true := by
    cases hc : results.content? (subtaskIdFor task.id .f4Test) with
    | none =>
      have hd : payload.quiz = [] := List.map_eq_nil_iff.mp (ha.none hc)
      simp [hd]
    | some content =>
      obtain ⟨questions, difficulty, summary, rfl, hsum, hall⟩ := h.quiz hc
      rw [quiz_assembled ha h hv hc, summary_assembled ha h hv hsum]
      exact fun q hq => ⟨(hall q hq).1, summary, rfl, (hall q hq).2⟩
  cases hc : results.content? (subtaskIdFor task.id .f6Recommend) with
  | none =>
    have hd : payload.citations = [] := List.map_eq_nil_iff.mp (ha.none hc)
    refine ⟨hstamped, hdistinct, hsummary, hterms.1, hterms.2, hquiz, ?_, ?_, ?_⟩ <;> simp [hd]
  | some content =>
    obtain ⟨citations, rfl, hlen, hcited, hranked, hrelated⟩ := h.citations hc
    have hd := citations_assembled ha h hv hc
    refine ⟨hstamped, hdistinct, hsummary, hterms.1, hterms.2, hquiz, ?_, ?_, fun _ => ⟨?_, ?_⟩⟩
    · rwa [hd]
    · rwa [hd]
    · rwa [hd]
    · rcases hrelated with hsum | ⟨terms, hterms5, hne⟩
      · obtain ⟨content3, hsum⟩ := Option.isSome_iff_exists.mp hsum
        obtain ⟨summary, rfl, -⟩ := h.summary hchunks hsum
        exact .inl (by rw [summary_assembled ha h hv hsum]; simp)
      · exact .inr (by rw [terms_assembled ha h hv hterms5]; exact hne)

end

/-! ## Runs -/

/-- **Every artifact is grounded.** In every run of the system in which the coordinator does not
crash, whatever is delivered when and whatever the models answer, each finalization assembles an
artifact, and what a client reads in it goes back to the chunks of the task's documents. -/
theorem artifacts_grounded (w : Workers κ σ) (ε : Type) {env : Env} (hv : env.validators.Faithful) (cfg : Config)
    {s₀ s : System} {ls : List Label} (h0 : s₀.Start) (hr : (system (w.Informed ε) {} env cfg).Run s₀ ls s)
    (hl : Label.crash ∉ ls) (tid : String) (cause : Cause) (status : TaskStatus) (st : TaskState)
    (hm : Event.finalizing cause status st ∈ (s.coordinator.outside tid).history) (now : ℚ) :
    ∃ artifact chunks, assembleArtifact env.validators st status now = .ok artifact ∧
      chunksOf st.results st.task.id = chunks.map TextChunk.dump ∧ Grounded w st.task chunks artifact.result := by
  have hc := Attached.run hr hl (attached_start h0)
  obtain ⟨-, task, habout⟩ := (taskInv_chronicle (.replies (w.Informed ε) {}) env cfg).histories hc.reachable tid
  have hwf : st.Wf := (habout _ hm).2.1
  have hans := answered_of_fits hwf ((hc.fits tid).2 cause status st hm)
  have hformed : AllFormed w.quality (buildPlan st.task) st.results := by
    intro sub hs content hcontent
    obtain ⟨op, -, rfl⟩ := mem_buildPlan.mp hs
    exact (hans.emits hcontent).2
  obtain ⟨payload, hok, hparts⟩ := assemblePayload_formed hv hformed
  obtain ⟨chunks, hchunks, hground⟩ := grounded_payload hparts hans hv
  exact ⟨_, chunks, by rw [assembleArtifact, hwf.plan_eq, hok]; rfl, hchunks, hground⟩

theorem artifacts_grounded_workshop : ∃ s artifact chunks,
    (∀ sub ∈ (buildPlan workshop).subtasks, (s.results.content? sub.id).isSome = true) ∧
    assembleArtifact Env.validating.validators s artifact.status 1 = .ok artifact ∧
    chunksOf s.results s.task.id = chunks.map TextChunk.dump ∧ Grounded Workers.crew s.task chunks artifact.result := by
  obtain ⟨cause, status, s, hm, hfull⟩ := Workshop.exists_full
  obtain ⟨artifact, chunks, hok, hchunks, hground⟩ := artifacts_grounded Workers.crew Unit
    (faithful_ofDumps : Env.validating.validators.Faithful) {} start_idle
    (System.run_of_ready trivial Workshop.ready_run) Workshop.noCrash_run "t1" cause status s hm 1
  exact ⟨s, artifact, chunks, hfull, by rw [assembleArtifact_status hok]; exact hok, hchunks, hground⟩

end

end MasResearch.L3
