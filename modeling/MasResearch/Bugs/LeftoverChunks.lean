import MasResearch.L3Runs.Saves

/-!
# A transcript without chunks does not replace the old one

`save_chunks` deletes the chunks of the documents it finds in the new rows
(src/db/repos.py:103-110). New content without chunks names no document, so nothing is
deleted: the chunks of the transcript before stay and are what recovery reloads. The
repository upserts "agent result rows" (src/db/repos.py:94), `save_terms` and
`save_citations` delete by task and do clear the table for an empty list
(src/db/repos.py:112-126), and the tests name the intent, "orphan (index 1) must be gone"
(tests/integration/test_result_persistence.py:77-120).

Counterexample (`old_transcript_stays`): a transcript of two chunks, then an empty one.

`replaced_iff`: in every reachable store, saving one content and then another leaves
exactly the rows of the second, unless the second is a list of no chunks and there was a
chunk to delete.
-/
namespace MasResearch.Bugs.LeftoverChunks

open MasResearch.L1 MasResearch.L2 MasResearch.L3

/-! ## Counterexample -/

/-- The lecture is transcribed, and then again without a chunk. -/
def emptied : Database := afterSaves Env.faultless [transcription 2, transcription 0]

/-- **Counterexample.** Both saves are committed, and the chunks of the first are left. -/
theorem old_transcript_stays :
    (saves lectureDocuments Env.faultless).Reachable emptied ∧ emptied.log = [transcription 0, transcription 2] ∧
      ¬ emptied.store.Holds Env.faultless "t1" .f1Transcribe (transcription 0).content := by
  refine ⟨reachable_transcriptions _ [2, 0], rfl, ?_⟩
  rintro ⟨rows, hrows, hperm⟩
  have hnone : resultRows Env.faultless "t1" .f1Transcribe (transcription 0).content = .ok [] := rfl
  obtain rfl := Except.ok.inj (hnone.symm.trans hrows)
  have hleft : (emptied.store.stored "t1" .f1Transcribe).length = 2 := by decide +kernel
  rw [hperm.length_eq] at hleft
  cases hleft

/-! ## When a content replaces the one before -/

/-- **When the second content is what is stored.** -/
theorem replaced_iff {env : Env} {docs : Documents} {db : Database} (h : (saves docs env).Reachable db)
    {task : Task} {op : Operation} {c₁ c₂ : Content} {st₁ st₂ : ResultStore}
    (h₁ : Save.Informed docs ⟨task, op, c₁⟩) (h₂ : Save.Informed docs ⟨task, op, c₂⟩)
    (hs₁ : db.store.saveResult env task.id op c₁ = .ok st₁) (hs₂ : st₁.saveResult env task.id op c₂ = .ok st₂) :
    st₂.Holds env task.id op c₂ ↔ ¬ (ingests op = true ∧ hasItems op c₂ = false) ∨
      (hasItems op c₁ = false ∧ db.store.stored task.id op = []) := by
  have hsound := sound_reachable h
  have hsound₁ := hsound.saveResult docs.biUnique h₁.owns h₁.emits hs₁
  obtain ⟨rows₁, hrows₁, hnil₁⟩ := resultRows_emits env h₁.emits
  obtain ⟨rows₂, hrows₂, hnil₂⟩ := resultRows_emits env h₂.emits
  have hst₁ := ResultStore.stored_saveResult hsound docs.biUnique h₁.owns h₁.emits hs₁ hrows₁
  have hst₂ := ResultStore.stored_saveResult hsound₁ docs.biUnique h₂.owns h₂.emits hs₂ hrows₂
  have hholds : st₂.Holds env task.id op c₂ ↔ (st₂.stored task.id op).Perm rows₂ :=
    ⟨fun ⟨rows, hr, hp⟩ => by rwa [Except.ok.inj (hrows₂.symm.trans hr)], fun hp => ⟨rows₂, hrows₂, hp⟩⟩
  rw [hholds, hst₂]
  by_cases hempty : ingests op = true ∧ hasItems op c₂ = false
  case neg =>
    rw [if_neg hempty]
    exact iff_of_true (.refl _) (.inl hempty)
  case pos =>
    -- nothing is deleted and nothing inserted: what the first save left has to be empty
    rw [if_pos hempty, hnil₂.mpr hempty.2, List.perm_nil, hst₁]
    by_cases hi : hasItems op c₁ = false
    · rw [if_pos ⟨hempty.1, hi⟩]
      exact ⟨fun hs => .inr ⟨hi, hs⟩, fun hc => (hc.resolve_left (not_not.mpr hempty)).2⟩
    · rw [if_neg fun hc => hi hc.2, hnil₁]
      exact iff_of_false hi (by tauto)

/-- A transcript of one chunk does replace one of two. -/
theorem replaced_iff_shorter :
    (afterSaves Env.faultless [transcription 2, transcription 1]).store.Holds Env.faultless "t1" .f1Transcribe
      (transcription 1).content := by
  have hstart : (saves lectureDocuments Env.faultless).Reachable {} := ⟨{}, [], rfl, .nil _⟩
  have hfirst : ({} : Database).store.saveResult Env.faultless "t1" .f1Transcribe (transcription 2).content =
      .ok (afterSaves Env.faultless [transcription 2]).store := rfl
  exact (replaced_iff hstart (informed_transcription 2) (informed_transcription 1) hfirst rfl).mpr (.inl (by decide))

end MasResearch.Bugs.LeftoverChunks
