import MasResearch.L3Runs.Saves

/-!
# Saving a transcript again unlinks the terms

`save_chunks` deletes the chunks of its documents and inserts them again
(src/db/repos.py:103-110), also when they are the same. Terms refer to chunks by a
foreign key that is declared ON DELETE SET NULL (src/db/models.py:77), so the deletion
clears `text_chunk_id` of the task's terms, and the insertion does not set it again. The
ids of the chunks were made for the opposite: "Deterministic ids keep re-persistence an
idempotent upsert" (src/agents/_chunk_stamp.py:1-10).

Counterexample (`resaved_transcript_unlinks`): a transcript, a term found in it, the
transcript again.

`idempotent_iff`: in every reachable store that holds the rows of a content, saving it
again commits, and changes no row of the task exactly if no term of the task links to a
chunk of the operation: always so for the operations that store no chunks.
-/
namespace MasResearch.Bugs.UnlinkedTerms

open MasResearch.L1 MasResearch.L2 MasResearch.L3

/-- Saving the content commits and leaves every row of the task as it is. -/
def Idempotent (env : Env) (store : ResultStore) (taskId : String) (op : Operation) (content : Content) : Prop :=
  ∃ store', store.saveResult env taskId op content = .ok store' ∧
    ∀ row : ResultRow, row.taskId = taskId → (store'.Has row ↔ store.Has row)

/-- A term of the task links to a chunk that is stored for the operation. -/
def Linked (store : ResultStore) (taskId : String) (op : Operation) : Prop :=
  ∃ term ∈ store.terms.rows, term.taskId = taskId ∧
    ∃ chunk ∈ store.storedChunks taskId op, term.textChunkId = .str chunk.id

/-! ## Counterexample -/

/-- A lecture of which a glossary is asked. -/
def colloquium : Task := { lecture with requestedOutputs := [.f1Transcribe, .f5Terms] }

def found : Term where
  term := "graph"
  «lemma» := "graph"
  frequency := 1
  category := "general"
  sourceChunkId := some (chunkId "d1" 0)

def minutes : Save := { transcription 1 with task := colloquium }

def glossary : Save := ⟨colloquium, .f5Terms, terminologyContent [found]⟩

theorem informed_minutes : minutes.Informed lectureDocuments where
  documents := rfl
  eligible := (by decide : Operation.f1Transcribe ∈ eligibleOperations colloquium)
  emits := (informed_transcription 1).emits

theorem informed_glossary : glossary.Informed lectureDocuments where
  documents := rfl
  eligible := (by decide : Operation.f5Terms ∈ eligibleOperations colloquium)
  emits := .f5 (by simp [found])

def finished : Database := afterSaves Env.faultless [minutes, glossary]

theorem reachable_finished : (saves lectureDocuments Env.faultless).Reachable finished :=
  reachable_afterSaves _ fun s hs => by
    rcases List.mem_pair.mp hs with rfl | rfl
    · exact informed_minutes
    · exact informed_glossary

theorem holds_minutes : finished.store.Holds Env.faultless "t1" .f1Transcribe minutes.content :=
  ⟨_, rfl, .refl _⟩

/-- The term links to its chunk. -/
def isLinked (row : TermRow) : Bool :=
  match row.textChunkId with
  | .none => false
  | _ => true

/-- **Counterexample.** -/
theorem resaved_transcript_unlinks :
    (saves lectureDocuments Env.faultless).Reachable finished ∧
      finished.store.Holds Env.faultless "t1" .f1Transcribe minutes.content ∧
      ¬ Idempotent Env.faultless finished.store "t1" .f1Transcribe minutes.content := by
  refine ⟨reachable_finished, holds_minutes, ?_⟩
  rintro ⟨store', hsave, hsame⟩
  have hagain : finished.store.saveResult Env.faultless "t1" .f1Transcribe minutes.content =
      .ok (afterSaves Env.faultless [minutes, glossary, minutes]).store := rfl
  obtain rfl := Except.ok.inj (hagain.symm.trans hsave)
  have hlinked : finished.store.terms.rows.all (fun row => isLinked row ∧ row.taskId = "t1") = true := by decide +kernel
  have hunlinked : (afterSaves Env.faultless [minutes, glossary, minutes]).store.terms.rows.any isLinked =
      false := by decide +kernel
  have hsome : finished.store.terms.rows ≠ [] := by decide +kernel
  obtain ⟨row, hrow⟩ := List.exists_mem_of_ne_nil _ hsome
  obtain ⟨hl, htask⟩ := of_decide_eq_true (List.all_eq_true.mp hlinked row hrow)
  have hleft := (hsame (.term row) htask).mpr hrow
  rw [List.any_eq_false] at hunlinked
  exact hunlinked row hleft hl

/-! ## Saving what is stored -/

section

variable {owns : Owns} {env : Env} {doc : Operation → String} {taskId : String} {op : Operation}
  {content : Content} {st st' : ResultStore}

theorem unlink_of_not_mem {gone : List String} {row : TermRow}
    (h : ∀ id ∈ gone, row.textChunkId ≠ .str id) : row.unlink gone = row := by
  unfold TermRow.unlink
  split
  · rename_i id hid
    rw [if_neg fun hm => h id hm hid]
  · rfl

/-- A link that is left was not to be cleared. -/
theorem not_mem_of_unlink {gone : List String} {row : TermRow} {id : String}
    (h : (row.unlink gone).textChunkId = .str id) : id ∉ gone := by
  unfold TermRow.unlink at h
  split at h
  · rename_i id' hid
    split at h
    · cases h
    · rename_i hgone
      rw [hid] at h
      cases h
      exact hgone
  · rename_i hstr
    exact absurd h (hstr id)

theorem perm_of_stored {ρ : Type} {wrap : ρ → ResultRow} (hw : Function.Injective wrap) {rows rows' : List ρ}
    (h : (rows.map wrap).Perm (rows'.map wrap)) : rows.Perm rows' := (List.map_perm_map_iff hw).mp h

/-- The rows of a stored ingestion content are the chunks stored for the operation. -/
theorem holds_chunks (hop : ingests op = true)
    (hst : st.Holds env taskId op content) {rows : List TextChunkRow}
    (hrows : chunkRows env taskId content = .ok rows) : (st.storedChunks taskId op).Perm rows := by
  obtain ⟨all, hall, hperm⟩ := hst
  rw [resultRows_ingests hop hrows] at hall
  obtain rfl := Except.ok.inj hall
  rw [ResultStore.stored_ingests hop] at hperm
  exact (List.map_perm_map_iff fun _ _ => ResultRow.chunk.inj).mp hperm

/-- Chunks that are stored can be saved again. -/
theorem saveChunks_again (h : st.Sound owns) (hu : Relator.BiUnique owns) (hop : ingests op = true)
    (hown : owns (doc op) (taskId, op)) (he : Emits doc taskId op content) (hst : st.Holds env taskId op content) :
    ∃ st', st.saveChunks env taskId content = .ok st' ∧ st'.chunks.rows.Perm st.chunks.rows := by
  obtain ⟨rows, hrows, -, hall⟩ := chunkRows_emits env he hop
  have hperm := holds_chunks hop hst hrows
  have hsame : ((st.chunks.rows.filter fun row => row.documentId ∉ rows.map (·.documentId)) ++ rows).Perm
      st.chunks.rows := by
    by_cases hne : rows = []
    · simp [hne]
    · rw [h.kept hu hown hall hne]
      refine (List.perm_append_comm.trans (hperm.symm.append_right _)).trans ?_
      exact List.filter_append_perm _ _
  have hnodup := (hsame.map (·.id)).nodup_iff.mpr st.chunks.nodup
  have hsave : st.saveChunks env taskId content = .ok { st with
      chunks := ⟨_, hnodup⟩
      terms := st.terms.update (TermRow.unlink (displaced st.chunks rows)) (TermRow.unlink_id _) } := by
    rw [ResultStore.saveChunks, hrows, saveChunks_commits hrows hnodup]
    rfl
  exact ⟨_, hsave, hsame⟩

/-- What is left of the terms decides whether saving the chunks again changes the task. -/
theorem idempotent_chunks (h : st.Sound owns) (hu : Relator.BiUnique owns) (hop : ingests op = true)
    (hown : owns (doc op) (taskId, op)) (he : Emits doc taskId op content) (hst : st.Holds env taskId op content) :
    Idempotent env st taskId op content ↔ ¬ Linked st taskId op := by
  obtain ⟨store, hsave, hperm⟩ := saveChunks_again h hu hop hown he hst
  obtain ⟨rows, hrows, -, -, hnil, heq⟩ := h.saveChunks hu hop hown he hsave
  have hterms : store.terms.rows = st.terms.rows.map (TermRow.unlink (st.cleared taskId op content)) := by
    rw [heq]; rfl
  have hcleared : st.cleared taskId op content = (st.storedChunks taskId op).map (·.id) := by
    cases hi : hasItems op content with
    | true => exact if_pos ⟨hop, hi⟩
    | false =>
      have hnone := holds_chunks hop hst hrows
      rw [hnil.mpr hi, List.perm_nil] at hnone
      rw [hnone]
      exact if_neg fun hc => by rw [hi] at hc; cases hc.2
  constructor
  · rintro ⟨store', hsave', hsame⟩ ⟨term, ht, htask, chunk, hchunk, hlink⟩
    rw [ResultStore.saveResult_ingests hop, hsave] at hsave'
    obtain rfl := Except.ok.inj hsave'
    have hin : term ∈ store.terms.rows := (hsame (.term term) htask).mpr ht
    rw [hterms] at hin
    obtain ⟨r, -, rfl⟩ := List.mem_map.mp hin
    refine not_mem_of_unlink hlink ?_
    rw [hcleared]
    exact List.mem_map_of_mem hchunk
  · intro hfree
    have hkeep : ∀ r ∈ st.terms.rows, r.taskId = taskId → r.unlink (st.cleared taskId op content) = r := by
      intro r hr htask
      refine unlink_of_not_mem fun id hid hlink => hfree ⟨r, hr, htask, ?_⟩
      rw [hcleared] at hid
      obtain ⟨chunk, hchunk, rfl⟩ := List.mem_map.mp hid
      exact ⟨chunk, hchunk, hlink⟩
    refine ⟨store, by rw [ResultStore.saveResult_ingests hop, hsave], fun row htask => ?_⟩
    cases row with
    | chunk row => exact hperm.mem_iff
    | term row =>
      show row ∈ store.terms.rows ↔ row ∈ st.terms.rows
      rw [hterms, List.mem_map]
      constructor
      · rintro ⟨r, hr, rfl⟩
        rw [hkeep r hr ((TermRow.unlink_taskId _ r).symm.trans htask)]
        exact hr
      · exact fun hr => ⟨row, hr, hkeep row hr htask⟩
    | summary row => rw [heq]; exact Iff.rfl
    | quiz row => rw [heq]; exact Iff.rfl
    | citation row => rw [heq]; exact Iff.rfl

/-- The operations without chunks can be saved again as they are. -/
theorem idempotent_rows (h : st.Sound owns) (hop : ingests op = false) (he : Emits doc taskId op content)
    (hst : st.Holds env taskId op content) : Idempotent env st taskId op content := by
  obtain ⟨rows, hrows, hperm⟩ := hst
  cases he with
  | f1 => cases hop
  | f2 => cases hop
  | f3 =>
    cases hrows
    obtain ⟨stored, hmem, hrow⟩ := List.mem_map.mp (hperm.symm.subset List.mem_cons_self)
    obtain rfl := ResultRow.summary.inj hrow
    refine ⟨_, rfl, fun row _ => ?_⟩
    cases row with
    | summary row => exact Table.mem_merge_of_mem (List.mem_of_mem_filter hmem)
    | _ => exact Iff.rfl
  | f4 =>
    cases hrows
    obtain ⟨stored, hmem, hrow⟩ := List.mem_map.mp (hperm.symm.subset List.mem_cons_self)
    obtain rfl := ResultRow.quiz.inj hrow
    refine ⟨_, rfl, fun row _ => ?_⟩
    cases row with
    | quiz row => exact Table.mem_merge_of_mem (List.mem_of_mem_filter hmem)
    | _ => exact Iff.rfl
  | @f5 terms hctx =>
    cases hrows
    have hperm := perm_of_stored (fun _ _ => ResultRow.term.inj) hperm
    obtain ⟨table, hins, hsame⟩ := Table.replace_self hperm
    have hlinks : ∀ row ∈ termRows env taskId (terminologyContent terms), st.chunks.resolves row.textChunkId = true :=
      fun row hr => h.links row (List.mem_of_mem_filter (hperm.symm.subset hr))
    refine ⟨{ st with terms := table }, ?_, fun row _ => ?_⟩
    · simp only [ResultStore.saveResult, ResultStore.saveTerms, hins]
      exact if_pos (List.all_eq_true.mpr hlinks)
    · cases row with
      | term row => exact hsame.mem_iff
      | _ => exact Iff.rfl
  | f6 citations =>
    cases hrows
    obtain ⟨table, hins, hsame⟩ := Table.replace_self (perm_of_stored (fun _ _ => ResultRow.citation.inj) hperm)
    refine ⟨{ st with citations := table }, ?_, fun row _ => ?_⟩
    · simp only [ResultStore.saveResult, ResultStore.saveCitations, hins]
    · cases row with
      | citation row => exact hsame.mem_iff
      | _ => exact Iff.rfl

end

/-! ## When saving again changes nothing -/

/-- **When saving again is idempotent.** -/
theorem idempotent_iff {env : Env} {docs : Documents} {db : Database} (h : (saves docs env).Reachable db)
    {task : Task} {op : Operation} {content : Content} (hc : Save.Informed docs ⟨task, op, content⟩)
    (hst : db.store.Holds env task.id op content) :
    Idempotent env db.store task.id op content ↔ ¬ Linked db.store task.id op := by
  by_cases hop : ingests op = true
  · exact idempotent_chunks (sound_reachable h) docs.biUnique hop (hc.owns hop) hc.emits hst
  · have hop := Bool.eq_false_iff.mpr hop
    refine iff_of_true (idempotent_rows (sound_reachable h) hop hc.emits hst) ?_
    rintro ⟨_, -, -, chunk, hchunk, -⟩
    rw [ResultStore.storedChunks_eq_nil hop] at hchunk
    cases hchunk

/-- Before a term links to it the transcript can be saved again. -/
theorem idempotent_iff_transcript :
    Idempotent Env.faultless (afterSaves Env.faultless [minutes]).store "t1" .f1Transcribe minutes.content := by
  have hreach : (saves lectureDocuments Env.faultless).Reachable (afterSaves Env.faultless [minutes]) :=
    reachable_afterSaves _ fun s hs => by
      rw [List.mem_singleton.mp hs]
      exact informed_minutes
  refine (idempotent_iff hreach informed_minutes ⟨_, rfl, .refl _⟩).mpr ?_
  rintro ⟨term, ht, -⟩
  cases ht

end MasResearch.Bugs.UnlinkedTerms
