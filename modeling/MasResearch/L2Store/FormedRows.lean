import MasResearch.L2Store.Assembled
import MasResearch.L2Store.ResultStore

/-!
# What recovery reads back

A row is typed if it decodes to a dump, and recovery can tell whose it is. Saving what the agents
inform keeps all rows typed, also where a save deletes the chunk a term is linked to; recovery
loads typed rows without raising, and what it loads is formed, whatever the order of the rows.

* `Typed.saveResult`: a save keeps the rows typed.
* `loadResults_formed`: recovery returns, and every loaded content is formed.
-/
namespace MasResearch.L2

open MasResearch.L1

/-- The row decodes to a dump; a chunk is of a known type, a summary and a quiz have their task's id. -/
def TypedRow (k : Quality) : ResultRow → Prop
  | .chunk row => (∃ chunk : TextChunk, row.dump = chunk.dump) ∧
      (sourceTypeToOperation row.sourceType).isSome = true
  | .summary row => (∃ s, k.summary s ∧ contentFromSummaryRow row = summaryDump s) ∧ row.id = "sum-" ++ row.taskId
  | .term row => ∃ t, k.term t ∧ row.dump = termDump t
  | .quiz row => (∃ qs : List QuizQuestion, (∀ q ∈ qs, k.question q) ∧ row.questions = qs.map questionDump) ∧
      row.id = "quiz-" ++ row.taskId
  | .citation row => ∃ c, k.citation c ∧ row.dump = citationDump c

/-- Every row of every table is typed. -/
def ResultStore.Typed (k : Quality) (st : ResultStore) : Prop := ∀ row, st.Has row → TypedRow k row

/-! ## Saving -/

/-- Rows that decode to dumps one by one. -/
theorem exists_dump {ρ α : Type} {back : ρ → Value} {dump : α → Value} {P : α → Prop} {rows : List ρ} {xs : List α}
    (h : rows.map back = xs.map dump) (hP : ∀ x ∈ xs, P x) {row : ρ} (hr : row ∈ rows) :
    ∃ x, P x ∧ back row = dump x := by
  have hin : back row ∈ xs.map dump := h ▸ List.mem_map_of_mem hr
  obtain ⟨x, hx, he⟩ := List.mem_map.mp hin
  exact ⟨x, hP x hx, he.symm⟩

theorem exists_dumps {ρ α : Type} (back : ρ → Value) (dump : α → Value) (P : α → Prop) : ∀ {rows : List ρ},
    (∀ row ∈ rows, ∃ x, P x ∧ back row = dump x) → ∃ xs : List α, (∀ x ∈ xs, P x) ∧ rows.map back = xs.map dump
  | [], _ => ⟨[], List.forall_mem_nil _, rfl⟩
  | row :: rows, h => by
    rw [List.forall_mem_cons] at h
    obtain ⟨x, hP, hx⟩ := h.1
    obtain ⟨xs, hPs, hxs⟩ := exists_dumps back dump P h.2
    exact ⟨x :: xs, List.forall_mem_cons.mpr ⟨hP, hPs⟩, by rw [List.map_cons, List.map_cons, hx, hxs]⟩

theorem dump_unlink {k : Quality} {gone : List String} {row : TermRow} {t : Term} (ht : k.term t)
    (h : row.dump = termDump t) : ∃ t', k.term t' ∧ (row.unlink gone).dump = termDump t' := by
  unfold TermRow.unlink
  split
  · split
    · refine ⟨{ t with sourceChunkId := none }, k.unlink t ht, ?_⟩
      simp only [TermRow.dump, termDump, Value.dict.injEq, List.cons.injEq, Prod.mk.injEq, true_and, and_true] at h ⊢
      obtain ⟨h1, h2, h3, h4, h5, -⟩ := h
      exact ⟨h1, h2, h3, h4, h5, rfl⟩
    · exact ⟨t, ht, h⟩
  · exact ⟨t, ht, h⟩

section

variable {env : Env} {doc : Operation → String} {taskId : String} {op : Operation} {content : Content}
  {st st' : ResultStore} {k : Quality}

theorem typed_chunkRows (h : Emits doc taskId op content) (hop : ingests op = true) {rows : List TextChunkRow}
    (hrows : chunkRows env taskId content = .ok rows) : ∀ row ∈ rows, TypedRow k (.chunk row) := by
  obtain ⟨rows', hrows', -, hall⟩ := chunkRows_emits env h hop
  obtain rfl : rows' = rows := Except.ok.inj (hrows'.symm.trans hrows)
  have key : ∀ {documentId : String} {chunks : List TextChunk},
      content.get? "chunks" = some (.list ((stamped taskId documentId chunks).map TextChunk.dump)) →
      ∀ row ∈ rows', TypedRow k (.chunk row) := by
    intro documentId chunks hget row hr
    refine ⟨?_, by rw [(hall row hr).2.2]; rfl⟩
    rw [chunkRows_dump env taskId hget] at hrows
    obtain rfl := Except.ok.inj hrows
    obtain ⟨chunk, hc, rfl⟩ := List.mem_map.mp hr
    exact ⟨chunk, dump_row (taskId_stamped taskId chunk hc)⟩
  cases h with
  | f1 => exact key rfl
  | f2 => exact key rfl
  | f3 => cases hop
  | f4 => cases hop
  | f5 => cases hop
  | f6 => cases hop

theorem typed_termRows {terms : List Term} (h : ∀ t ∈ terms, t.context = none) (hk : ∀ t ∈ terms, k.term t) :
    ∀ row ∈ termRows env taskId (terminologyContent terms), TypedRow k (.term row) := by
  have hback := reread_terms env taskId h
  have hlist : (termRows env taskId (terminologyContent terms)).map TermRow.dump = terms.map termDump := by
    simpa [contentFromTermRows, terminologyContent] using hback
  exact fun row hr => exists_dump hlist hk hr

theorem typed_citationRows {citations : List Citation} (hk : ∀ c ∈ citations, k.citation c) :
    ∀ row ∈ citationRows env taskId (recommenderContent citations), TypedRow k (.citation row) := by
  have hback := reread_citations env taskId citations
  have hlist : (citationRows env taskId (recommenderContent citations)).map CitationRow.dump =
      citations.map citationDump := by
    simpa [contentFromCitationRows, recommenderContent] using hback
  exact fun row hr => exists_dump hlist hk hr

namespace ResultStore

theorem typed_empty : ResultStore.Typed k {} := by
  rintro (_ | _ | _ | _ | _) hr <;> cases hr

/-- **A save keeps the rows typed.** -/
theorem Typed.saveResult (h : st.Typed k) (he : Emits doc taskId op content) (hf : Formed k op content)
    (hs : st.saveResult env taskId op content = .ok st') : st'.Typed k := by
  by_cases hop : ingests op = true
  case pos =>
    rw [saveResult_ingests hop] at hs
    obtain ⟨rows, hrows, -⟩ := chunkRows_emits env he hop
    obtain ⟨hchunks, heq⟩ := saveChunks_ok hrows hs
    rintro (row | row | row | row | row) hr
    · have hr : row ∈ st'.chunks.rows := hr
      rw [hchunks] at hr
      rcases List.mem_append.mp hr with hr | hr
      · exact h (.chunk row) (List.mem_of_mem_filter hr)
      · exact typed_chunkRows he hop hrows row hr
    · rw [heq] at hr; exact h (.summary row) hr
    · rw [heq] at hr
      obtain ⟨old, hold, rfl⟩ := List.mem_map.mp hr
      obtain ⟨t, hk, ht⟩ := h (.term old) hold
      exact dump_unlink hk ht
    · rw [heq] at hr; exact h (.quiz row) hr
    · rw [heq] at hr; exact h (.citation row) hr
  cases he with
  | f1 => exact absurd rfl hop
  | f2 => exact absurd rfl hop
  | f3 introduction keyPoints conclusions chunkIds =>
    obtain ⟨s, hk, hs'⟩ := hf
    cases hs
    rintro (row | row | row | row | row) hr
    case summary =>
      rcases Table.mem_merge.mp hr with rfl | ⟨hr, -⟩
      · exact ⟨⟨s, hk, (reread_summary env taskId introduction keyPoints conclusions chunkIds).trans hs'⟩,
          by rw [summaryRow_emits]⟩
      · exact h (.summary row) hr
    all_goals exact h _ hr
  | f4 difficulty questions =>
    obtain ⟨qs, hk, hqs⟩ := hf
    obtain rfl : questions = qs := dumps_inj faithful_ofDumps.question (Value.list.inj (Option.some.inj hqs))
    cases hs
    rintro (row | row | row | row | row) hr
    case quiz =>
      rcases Table.mem_merge.mp hr with rfl | ⟨hr, -⟩
      · exact ⟨⟨questions, hk, by rw [quizRow_emits]⟩, by rw [quizRow_emits]⟩
      · exact h (.quiz row) hr
    all_goals exact h _ hr
  | f5 hctx =>
    obtain ⟨ts, hk, hts⟩ := hf
    obtain rfl := dumps_inj faithful_ofDumps.term (Value.list.inj (Option.some.inj hts))
    obtain ⟨terms, hins, -, rfl⟩ := saveTerms_ok hs
    rintro (row | row | row | row | row) hr
    case term =>
      have hr : row ∈ terms.rows := hr
      rw [Table.rows_insert? hins] at hr
      rcases List.mem_append.mp hr with hr | hr
      · exact h (.term row) (List.mem_of_mem_filter hr)
      · exact typed_termRows hctx hk row hr
    all_goals exact h _ hr
  | f6 cited =>
    obtain ⟨cs, hk, hcs⟩ := hf
    obtain rfl : cited = cs := dumps_inj faithful_ofDumps.citation (Value.list.inj (Option.some.inj hcs))
    obtain ⟨citations, hins, rfl⟩ := saveCitations_ok hs
    rintro (row | row | row | row | row) hr
    case citation =>
      have hr : row ∈ citations.rows := hr
      rw [Table.rows_insert? hins] at hr
      rcases List.mem_append.mp hr with hr | hr
      · exact h (.citation row) (List.mem_of_mem_filter hr)
      · exact typed_citationRows hk row hr
    all_goals exact h _ hr

theorem Typed.readable (h : st.Typed k) (taskId : String) : st.Readable taskId where
  chunks row hr _ := (h (.chunk row) hr).2
  summaries := Table.length_select_le_one (k := "sum-" ++ taskId) fun row hr hp => by
    rw [(h (.summary row) hr).2, of_decide_eq_true hp]
  quizzes := Table.length_select_le_one (k := "quiz-" ++ taskId) fun row hr hp => by
    rw [(h (.quiz row) hr).2, of_decide_eq_true hp]

end ResultStore

/-! ## Loading -/

/-- Every entry is one of an operation of the task, and formed. -/
def FormedEntries (k : Quality) (taskId : String) (d : Dict String Content) : Prop := ∀ sid content,
  d.get? sid = some content → ∃ op, sid = subtaskIdFor taskId op ∧ Formed k op content

theorem FormedEntries.put {d : Dict String Content} (h : FormedEntries k taskId d) {entry : Option Content}
    (he : ∀ content ∈ entry, Formed k op content) :
    FormedEntries k taskId (ResultStore.putEntry taskId op entry d) := by
  cases entry with
  | none => exact h
  | some content =>
    intro sid c hc
    have hc : (d.set (subtaskIdFor taskId op) content).get? sid = some c := hc
    rw [Dict.get?_set] at hc
    split at hc
    · rename_i hsid
      cases hc
      exact ⟨op, hsid, he content rfl⟩
    · exact h sid c hc

theorem formed_chunkRows {rows : List TextChunkRow} (h : ∀ row ∈ rows, TypedRow k (.chunk row))
    (hop : ingests op = true) : Formed k op (contentFromChunkRows rows) := by
  obtain ⟨chunks, -, hchunks⟩ := exists_dumps TextChunkRow.dump TextChunk.dump (fun _ => True)
    fun row hr => (h row hr).1.imp fun _ he => ⟨trivial, he⟩
  have hget : (contentFromChunkRows rows).get? "chunks" = some (.list (chunks.map TextChunk.dump)) := by
    rw [← hchunks]
    rfl
  cases op with
  | f1Transcribe => exact ⟨chunks, hget⟩
  | f2Ocr => exact ⟨chunks, hget⟩
  | f3Summarize => cases hop
  | f4Test => cases hop
  | f5Terms => cases hop
  | f6Recommend => cases hop

theorem FormedEntries.buckets : ∀ {buckets : List (Operation × List TextChunkRow)} {d : Dict String Content},
    FormedEntries k taskId d →
    (∀ bucket ∈ buckets, ingests bucket.1 = true ∧ ∀ row ∈ bucket.2, TypedRow k (.chunk row)) →
    FormedEntries k taskId (buckets.foldl
      (fun results bucket => ResultStore.putEntry taskId bucket.1 (some (contentFromChunkRows bucket.2)) results) d)
  | [], _, h, _ => h
  | bucket :: buckets, d, h, hb => by
    rw [List.forall_mem_cons] at hb
    rw [List.foldl_cons]
    refine FormedEntries.buckets (h.put fun content hc => ?_) hb.2
    rw [← Option.some.inj hc]
    exact formed_chunkRows hb.1.2 hb.1.1

/-- **Recovery reads every task back**, and what it loads is formed. -/
theorem ResultStore.loadResults_formed (env : Env) (h : st.Typed k) (taskId : String) :
    ∃ results, st.loadResults env taskId = .ok results ∧ FormedEntries k taskId results := by
  have hr := h.readable taskId
  have hlist : ∀ row, row ∈ listChunkRows st.chunks taskId ↔ row ∈ st.chunks.rows ∧ row.taskId = taskId := by
    intro row
    rw [listChunkRows, (byKey_perm _ _).mem_iff, List.mem_filter, decide_eq_true_eq]
  have hknown : ∀ row ∈ listChunkRows st.chunks taskId, (sourceTypeToOperation row.sourceType).isSome = true :=
    fun row hm => hr.chunks row ((hlist row).mp hm).1 ((hlist row).mp hm).2
  obtain ⟨buckets, hb, hget⟩ := bucketChunksByOperation_ok env hknown
  refine ⟨_, by rw [loadResults, hb, scalarOneOrNone_ok hr.summaries, scalarOneOrNone_ok hr.quizzes]; rfl, ?_⟩
  refine FormedEntries.put (FormedEntries.put (FormedEntries.put (FormedEntries.put (FormedEntries.buckets ?_ ?_) ?_)
    ?_) ?_) ?_
  · intro sid content hc
    simp at hc
  · rintro ⟨op, rows⟩ hin
    have hrows : rows = (listChunkRows st.chunks taskId).filter fun row =>
        sourceTypeToOperation row.sourceType = some op := by
      rw [← hget op, Dict.getD_eq, Dict.get?_eq_some.mpr hin]
      rfl
    obtain ⟨row, hm, hop⟩ := (mem_buckets hb).mp (Dict.mem_of_get? (Dict.get?_eq_some.mpr hin))
    refine ⟨ingests_of_sourceType hop, fun row hm => ?_⟩
    rw [hrows] at hm
    exact h (.chunk row) ((hlist row).mp (List.mem_of_mem_filter hm)).1
  · intro content hc
    obtain ⟨row, hrow, rfl⟩ := Option.map_eq_some_iff.mp hc
    exact (h (.summary row) (List.mem_of_mem_filter (List.mem_of_mem_head? hrow))).1
  · intro content hc
    rw [fromRows] at hc
    split at hc
    · cases hc
    · obtain ⟨ts, hk, hts⟩ := exists_dumps TermRow.dump termDump k.term fun row hrow =>
        h (.term row) (List.mem_of_mem_filter ((byKey_perm _ _).subset hrow))
      rw [← Option.some.inj hc]
      exact ⟨ts, hk, by rw [← hts]; rfl⟩
  · intro content hc
    obtain ⟨row, hrow, rfl⟩ := Option.map_eq_some_iff.mp hc
    obtain ⟨⟨qs, hk, hqs⟩, -⟩ := h (.quiz row) (List.mem_of_mem_filter (List.mem_of_mem_head? hrow))
    exact ⟨qs, hk, by rw [← hqs]; rfl⟩
  · intro content hc
    rw [fromRows] at hc
    split at hc
    · cases hc
    · obtain ⟨cs, hk, hcs⟩ := exists_dumps CitationRow.dump citationDump k.citation fun row hrow =>
        h (.citation row) (List.mem_of_mem_filter ((byKey_perm _ _).subset hrow))
      rw [← Option.some.inj hc]
      exact ⟨cs, hk, by rw [← hcs]; rfl⟩

end

end MasResearch.L2
