import MasResearch.L3Runs.Reloads
import MasResearch.L3Runs.Saves

/-!
# An empty result is forgotten by recovery

Whether an operation has a result is not stored: recovery infers it from the rows the
result left (src/agents/recovery.py:110-128). A transcript without speech, a text without
terms and a search without citations leave no row, so `load_in_flight` returns no entry
and `_resume` requests the subtask again, although its save was committed. "Recovery
re-drives any subtask missing from the DB on restart" (src/agents/coordinator.py:208-213);
the persisted ones are to be left alone (tests/unit/test_recovery.py:58-77).

Counterexample (`silent_lecture_redriven`): a lecture of which the transcriber informed
the empty list.

`notRedriven_iff`: in every run of saves, a subtask is not re-driven exactly if its
operation still has rows: always after a summary or a quiz; for terms and citations if
the content saved last has one; for chunks if some saved content has one.
-/
namespace MasResearch.Bugs.EmptyResults

open MasResearch.L1 MasResearch.L2 MasResearch.L3

/-- `load_in_flight` returns the task with an entry for the operation's subtask, and
`_resume` publishes no request for it. -/
def NotRedriven (env : Env) (store : ResultStore) (inFlight : List Task) (task : Task) (op : Operation) : Prop :=
  ∃ recovered results, store.loadInFlight env inFlight = .ok recovered ∧ ⟨task, results⟩ ∈ recovered ∧
    subtaskIdFor task.id op ∈ results ∧ ∀ env cfg now o g,
      requests (subtaskIdFor task.id op) ((resume env cfg task results now).run ⟨none, o, g⟩).2.outside.history =
        requests (subtaskIdFor task.id op) o.history

/-! ## Counterexample -/

/-- The transcript of a silent lecture is saved. -/
def silent : Database := afterSaves Env.faultless [transcription 0]

/-- **Counterexample.** The save is committed, and the transcriber is asked again. -/
theorem silent_lecture_redriven :
    (saves lectureDocuments Env.faultless).Reachable silent ∧ silent.log = [transcription 0] ∧
      ¬ NotRedriven Env.faultless silent.store [lecture] lecture .f1Transcribe ∧
      requests "st-t1-F1" ((resume Env.faultless {} lecture ∅ 0).run ⟨none, ⟨[], none⟩, 0⟩).2.outside.history = 1 := by
  have hload : silent.store.loadInFlight Env.faultless [lecture] = .ok [⟨lecture, ∅⟩] := rfl
  refine ⟨reachable_transcriptions _ [0], rfl, ?_, by decide +kernel⟩
  rintro ⟨recovered, results, hrec, hm, hsid, -⟩
  obtain rfl := Except.ok.inj (hload.symm.trans hrec)
  obtain rfl : results = ∅ := congrArg RecoveredTask.results (List.mem_singleton.mp hm)
  exact Dict.not_mem_empty _ hsid

/-! ## When a result is remembered -/

/-- **Which results recovery remembers.** -/
theorem notRedriven_iff {env : Env} {docs : Documents} {db : Database} (h : (saves docs env).Reachable db)
    {inFlight : List Task} {task : Task} {op : Operation} (hin : task ∈ inFlight)
    (hplan : op ∈ eligibleOperations task) :
    NotRedriven env db.store inFlight task op ↔ rowsLeft op (contents db.log task.id op) = true := by
  have hsound := sound_reachable h
  obtain ⟨recovered, hrec, hmem⟩ := ResultStore.loadInFlight_ok env fun t (_ : t ∈ inFlight) => hsound.readable t.id
  obtain ⟨results, hload, hentry⟩ := ResultStore.loadResults_ok env (hsound.readable task.id)
  rw [← stored_reachable h task.id op, ← hentry op]
  constructor
  · rintro ⟨recovered', results', hrec', hm, hsid, -⟩
    obtain rfl := Except.ok.inj (hrec'.symm.trans hrec)
    obtain ⟨-, hload'⟩ := (hmem _).mp hm
    rwa [← Except.ok.inj (hload'.symm.trans hload)]
  · intro hsid
    have hids : subtaskIdFor task.id op ∈ (buildPlan task).ids :=
      Plan.mem_ids.mpr ⟨_, mem_buildPlan.mpr ⟨op, hplan, rfl⟩, rfl⟩
    exact ⟨recovered, results, hrec, (hmem _).mpr ⟨hin, hload⟩, hsid, fun env cfg now o g =>
      requests_resume env cfg now hids hsid o g⟩

/-- A later silent transcript does not matter. -/
theorem notRedriven_iff_transcribed :
    NotRedriven Env.faultless (afterSaves Env.faultless ([2, 0].map transcription)).store [lecture] lecture
      .f1Transcribe :=
  (notRedriven_iff (reachable_transcriptions _ [2, 0]) List.mem_cons_self (by decide)).mpr (by decide +kernel)

end MasResearch.Bugs.EmptyResults
