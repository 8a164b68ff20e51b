import MasResearch.L2Agents.Workers
import MasResearch.L2Store.Assembled

/-!
# What the agents make of a request's chunks and summary

A request of the coordinator holds dumps of chunks, of a summary and of terms. These are the
agents' views of them.

* `combined_dumps`, `sourceChunkIds_dumps`, `sources_dumps`: the chunks, as F3 and F5 read them.
* `RecommenderAgent.query_empty`: without a summary and without terms F6 has nothing to search.
-/
namespace MasResearch.L2

open MasResearch.L1

/-! ## Chunks -/

/-- The dict of a dumped chunk. -/
def TextChunk.items (chunk : TextChunk) : Content := (Value.asDict chunk.dump).getD []

section

variable {str : Value → String} {deps : Summarizer.Deps} {content : Content} {chunks : List TextChunk}

theorem chunkDicts_dumps (hc : content.get? "chunks" = some (.list (chunks.map TextChunk.dump))) :
    Summarizer.chunkDicts content = chunks.map TextChunk.items := by
  rw [Summarizer.chunkDicts, hc]
  show (chunks.map TextChunk.dump).filterMap Value.asDict = _
  rw [List.filterMap_map]
  exact List.filterMap_eq_map_iff_forall_eq_some.mpr fun _ _ => rfl

theorem sourceChunkIds_dumps (hstr : ∀ s, deps.str (.str s) = s)
    (hc : content.get? "chunks" = some (.list (chunks.map TextChunk.dump))) :
    Summarizer.sourceChunkIds deps content = chunks.map (·.id) := by
  have hid : ∀ chunk : TextChunk, chunk.items.get? "id" = some (.str chunk.id) := fun _ => rfl
  rw [Summarizer.sourceChunkIds, chunkDicts_dumps hc, List.filterMap_map, List.map_filterMap]
  exact List.filterMap_eq_map_iff_forall_eq_some.mpr fun chunk _ => by
    simp [hid, hstr]

/-- A text that is not blank has a chunk that is not. -/
theorem combined_dumps (hstr : ∀ s, deps.str (.str s) = s)
    (hc : content.get? "chunks" = some (.list (chunks.map TextChunk.dump)))
    (hne : Summarizer.combined deps content ≠ []) : ∃ chunk ∈ chunks, strip chunk.content.toList ≠ [] := by
  rw [Summarizer.combined, chunkDicts_dumps hc, List.map_map, ne_eq, strip_eq_nil] at hne
  push Not at hne
  obtain ⟨c, hmem, hc⟩ := hne
  rcases mem_joinNonempty hmem with hsep | ⟨part, hpart, hin⟩
  · rw [List.mem_singleton.mp hsep] at hc
    exact absurd (by decide) hc
  · obtain ⟨chunk, hchunk, rfl⟩ := List.mem_map.mp hpart
    refine ⟨chunk, hchunk, fun hnil => hc (strip_eq_nil.mp hnil c ?_)⟩
    have hcontent : chunk.items.get? "content" = some (.str chunk.content) := rfl
    simpa [hcontent, hstr] using hin

theorem sources_dumps (hstr : ∀ s, str (.str s) = s)
    (hc : content.get? "chunks" = some (.list (chunks.map TextChunk.dump))) {source : String × String}
    (hs : source ∈ sourcesOf str content) :
    ∃ chunk ∈ chunks, source = (chunk.id, chunk.content) ∧ strip chunk.content.toList ≠ [] := by
  rw [sourcesOf, chunkDicts_dumps hc, List.filterMap_map] at hs
  obtain ⟨chunk, hchunk, he⟩ := List.mem_filterMap.mp hs
  have hid : chunk.items.get? "id" = some (.str chunk.id) := rfl
  have hcontent : chunk.items.get? "content" = some (.str chunk.content) := rfl
  simp only [Function.comp_apply, hid, hcontent, Option.getD_some, hstr] at he
  split_ifs at he with hblank
  refine ⟨chunk, hchunk, (Option.some.inj he).symm, fun hnil => hblank ?_⟩
  rw [stripped, hnil]

end

/-! ## The summary -/

/-- The text of a summary, as F4 sends it to the model. -/
def summaryText (summary : Summary) : String :=
  stripped ("\n".intercalate ((summary.sections.map (·.text)).filter (· ≠ "")))

section

variable {str : Value → String}

theorem summaryToText_dump (hstr : ∀ s, str (.str s) = s) (summary : Summary) :
    summaryToText str (.dict (summaryDump summary)) = summaryText summary := by
  have hsections : Content.get? (summaryDump summary) "sections" =
      some (.list (summary.sections.map sectionDump)) := rfl
  simp only [summaryToText, hsections, List.filterMap_map]
  rw [summaryText]
  congr 3
  refine List.filterMap_eq_map_iff_forall_eq_some.mpr fun part _ => ?_
  have htext : Content.get? [("type", Value.str (SectionType.value part.type)), ("text", .str part.text)] "text" =
    some (.str part.text) := rfl
  simp [Function.comp_apply, sectionDump, htext, hstr]

end

/-! ## Quality -/

section

variable {κ σ : Type}

/-- What the agents promise of each thing they make. -/
def Workers.quality (w : Workers κ σ) : Quality where
  summary s := s.sections.map (·.type) = [.introduction, .thesis, .conclusion]
  question q := isWellFormed q = true
  term t := passes w.terminology t.lemma = true ∧ 1 ≤ t.frequency ∧
    ∃ label, t.category = categorize w.terminology t.lemma label
  unlink _ h := h
  citation c := ∃ entry ∈ w.corpus, ∃ score, c = Recommender.citationOf entry score

end

/-! ## The query -/

section

variable {σ ε : Type} {agent : Recommender.RecommenderAgent σ ε}

/-- Without a summary and without terms there is no query. -/
theorem Recommender.RecommenderAgent.query_empty {content : Content} (hs : content.get? "summary" = some (.dict []))
    (ht : content.get? "terms" = some (.list [])) : agent.query content = [] := by
  rw [Recommender.RecommenderAgent.query, hs, ht]
  rfl

end

end MasResearch.L2
