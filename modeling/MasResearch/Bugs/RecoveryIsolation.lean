import MasResearch.L2Dispatch.Enrol
import MasResearch.L3Runs.Timers

/-!
# One task that cannot be resumed stops the recovery of all

`_recover` resumes the loaded tasks in a plain loop (src/agents/coordinator.py:151-152)
and `run` awaits it before its own loop (src/agents/coordinator.py:113), so whatever
`_resume` raises skips the tasks behind it and ends `run`. In the loop of `_tick` the
same calls are made inside a `try` whose handler abandons that one task: "A single
task that throws during advance/finalize ... must never wedge the run loop or starve
sibling tasks" (src/agents/coordinator.py:193-207,370-372).

Counterexample (`failed_resume_starves_siblings`): two tasks are loaded, publishing
the first request of the first one raises.

`isolated_iff`: recovery isolates failures exactly when there are none to isolate,
that is, when every loaded task can be resumed (`ResumeSucceeds`).
-/
namespace MasResearch.Bugs.RecoveryIsolation

open MasResearch.L1 MasResearch.L2 MasResearch.L3 TaskState

/-- On its own, resuming the task does not raise. -/
def Resumes (env : Env) (cfg : Config) (now : ℚ) (c : Coordinator) (item : RecoveredTask) : Prop :=
  ((resume env cfg item.task item.results now).run (c.slot item.task.id)).1 = .ok ()

/-- The task is registered, or its row is final and carries its artifact. -/
def Carried (c : Coordinator) (tid : String) : Prop :=
  (c.tasks.get? tid).isSome = true ∨ ∃ row a, (c.outside tid).row = some row ∧ row.finalArtifact = some a ∧
    a.status = row.status ∧ row.status.terminal = true

/-- Recovery carries on every task that can be, and `run` goes on to its loop. -/
structure Isolated (env : Env) (cfg : Config) (c : Coordinator) (recovered : List RecoveredTask) (now : ℚ) :
    Prop where
  siblings : ∀ item ∈ recovered, Resumes env cfg now c item →
    Carried ((recover env cfg recovered now).run c).2 item.task.id
  loop : ∀ rounds, ((Coordinator.run env cfg recovered now rounds).run c).1 = .ok ()

/-! ## Counterexample -/

/-- The bus refuses the first request of task `t1`. -/
def busDown : Env := { Env.faultless with raises := fun _ call => call = .publish "st-t1-F1" }

def first : RecoveredTask := ⟨lecture, ∅⟩

def second : RecoveredTask := ⟨{ lecture with id := "t2" }, ∅⟩

/-- **Counterexample.** -/
theorem failed_resume_starves_siblings :
    Resumes busDown {} 0 Coordinator.idle second ∧
      ¬ Carried ((recover busDown {} [first, second] 0).run Coordinator.idle).2 "t2" ∧
      ¬ Isolated busDown {} Coordinator.idle [first, second] 0 := by
  have hsecond : Resumes busDown {} 0 Coordinator.idle second := by unfold Resumes; decide +kernel
  have hleft : ¬ Carried ((recover busDown {} [first, second] 0).run Coordinator.idle).2 "t2" := by
    rintro (h | ⟨row, a, hrow, ha, -⟩)
    · revert h; decide +kernel
    · -- the row of `t2` is the one `create_task` wrote
      have hart : (((recover busDown {} [first, second] 0).run Coordinator.idle).2.outside "t2").row.bind
          (·.finalArtifact) = none := by decide +kernel
      rw [hrow, Option.bind_some, ha] at hart
      cases hart
  exact ⟨hsecond, hleft, fun h => hleft (h.siblings second (by simp) hsecond)⟩

/-! ## When recovery does isolate -/

/-- Every call that resuming the task makes returns: with results for the whole
plan these are the ones of `_finalize`, otherwise the requests for the subtasks
whose dependencies were all reloaded. -/
def ResumeSucceeds (env : Env) (now : ℚ) (item : RecoveredTask) (o : Outside) : Prop :=
  let s := TaskState.resumed item.task item.results now
  if s.pending = ∅ then FinalizeSucceeds env .resolved now s (o.note .recovered)
  else (requestAll env now s (.registered .recovery :: .recovered :: o.history)
    (openSubtasks s s.published s.plan.subtasks)).isSome = true

variable {env : Env} {cfg : Config} {now : ℚ}

/-- Resuming one task: it is carried on, or something raises. -/
theorem run_resume (env : Env) (cfg : Config) (now : ℚ) (item : RecoveredTask) (l : Slot) :
    (ResumeSucceeds env now item l.outside ∧
      ∃ l', (resume env cfg item.task item.results now).run l = (.ok (), l') ∧ (l'.state.isSome = true ∨
        ∃ row a, l'.outside.row = some row ∧ row.finalArtifact = some a ∧ a.status = row.status ∧
          row.status.terminal = true)) ∨
    (¬ ResumeSucceeds env now item l.outside ∧
      ∃ e l', (resume env cfg item.task item.results now).run l = (.error e, l')) := by
  obtain ⟨st, o, g⟩ := l
  have hu := unspent_resumed item.task item.results now
  simp only [resume, Exec.run_bind, Exec.run_modify, Slot.note, ResumeSucceeds]
  by_cases hp : (TaskState.resumed item.task item.results now).pending = ∅
  · simp only [if_pos hp]
    obtain ⟨r, o', h1, hf⟩ := run_enrol_done env cfg now .recovery hp st (o.note .recovered) g
    rw [h1]
    cases r with
    | ok _ => exact .inl ⟨hf.ok_iff.mp rfl, _, rfl, .inr hf.row⟩
    | error e => exact .inr ⟨fun hs => (by cases hf.ok_iff.mpr hs), e, _, rfl⟩
  · simp only [if_neg hp]
    rcases run_enrol_open env cfg now .recovery hu hp st (o.note .recovered) g with
      ⟨hn, l', h1⟩ | ⟨h, s', hsome, h1, -⟩
    · exact .inr ⟨fun hs => (by rw [Outside.note_history] at hn; rw [hn] at hs; cases hs), _, l', h1⟩
    · refine .inl ⟨?_, _, h1, .inl rfl⟩
      rw [Outside.note_history] at hsome
      rw [hsome]; rfl

/-- The loop of `_recover`, by induction on the list. -/
theorem run_recover (env : Env) (cfg : Config) (now : ℚ) : ∀ (items : List RecoveredTask) (c : Coordinator),
    (items.map fun item => item.task.id).Nodup →
    ((∀ item ∈ items, ResumeSucceeds env now item (c.outside item.task.id)) ∧
      ∃ c', (recover env cfg items now).run c = (.ok (), c') ∧ (∀ item ∈ items, Carried c' item.task.id) ∧
        ∀ k, (∀ item ∈ items, k ≠ item.task.id) → c'.slot k = c.slot k) ∨
    (¬ (∀ item ∈ items, ResumeSucceeds env now item (c.outside item.task.id)) ∧
      ∃ e c', (recover env cfg items now).run c = (.error e, c'))
  | [], c, _ => .inl ⟨by simp, c, rfl, by simp, fun _ _ => rfl⟩
  | item :: items, c, hd => by
    rw [List.map_cons, List.nodup_cons] at hd
    have hne : ∀ other ∈ items, other.task.id ≠ item.task.id := fun other ho he =>
      hd.1 (he ▸ List.mem_map_of_mem (f := fun i : RecoveredTask => i.task.id) ho)
    rcases run_resume env cfg now item (c.slot item.task.id) with
      ⟨hs, l', h1, hl⟩ | ⟨hs, e, l', h1⟩
    case inr =>
      refine .inr ⟨fun h => hs (h item List.mem_cons_self), e, c.putSlot item.task.id l', ?_⟩
      rw [recover, Exec.forEach, Exec.run_bind_error (run_forTask h1)]
    have hout : ∀ k, k ≠ item.task.id → (c.putSlot item.task.id l').outside k = c.outside k := fun k hk =>
      outside_of_slot (slot_putSlot_ne hk)
    have hself : Carried (c.putSlot item.task.id l') item.task.id := by
      rw [Carried, tasks_putSlot_self, outside_putSlot_self]; exact hl
    have hcons : (∀ other ∈ item :: items, ResumeSucceeds env now other (c.outside other.task.id)) ↔
        ∀ other ∈ items, ResumeSucceeds env now other ((c.putSlot item.task.id l').outside other.task.id) := by
      rw [List.forall_mem_cons]
      constructor
      · intro h other ho; rw [hout _ (hne other ho)]; exact h.2 other ho
      · intro h
        exact ⟨hs, fun other ho => by have := h other ho; rwa [hout _ (hne other ho)] at this⟩
    have hrun : (recover env cfg (item :: items) now).run c =
        (recover env cfg items now).run (c.putSlot item.task.id l') := by
      rw [recover, Exec.forEach, Exec.run_bind_ok (run_forTask h1)]; rfl
    rw [hrun, hcons]
    rcases run_recover env cfg now items (c.putSlot item.task.id l') hd.2 with
      ⟨hok, c', h2, hc, hframe⟩ | ⟨hno, e, c', h2⟩
    · refine .inl ⟨hok, c', h2, ?_, fun k hk => ?_⟩
      · rw [List.forall_mem_cons]
        refine ⟨?_, hc⟩
        have he := hframe item.task.id fun other ho he => hne other ho he.symm
        rw [Carried, tasks_of_slot he, outside_of_slot he]; exact hself
      · rw [hframe k fun other ho => hk other (List.mem_cons_of_mem _ ho),
          slot_putSlot_ne (hk item List.mem_cons_self)]
    · exact .inr ⟨hno, e, c', h2⟩

/-- The loop of `run` never raises. -/
theorem run_rounds (env : Env) (cfg : Config) : ∀ (rounds : List (Batch × ℚ)) (c : Coordinator), ∃ c',
    (Exec.forEach rounds fun round => Exec.attempt (tick env cfg round.1 round.2) fun _ => pure ()).run c =
      (.ok (), c')
  | [], c => ⟨c, rfl⟩
  | round :: rounds, c => by
    obtain ⟨c₁, h1⟩ : ∃ c₁, (Exec.attempt (tick env cfg round.1 round.2) fun _ => pure ()).run c =
        (.ok (), c₁) := by
      rw [Exec.run_attempt]
      generalize (tick env cfg round.1 round.2).run c = r
      obtain ⟨_ | _, c₁⟩ := r
      · exact ⟨c₁, rfl⟩
      · exact ⟨c₁, rfl⟩
    obtain ⟨c', h2⟩ := run_rounds env cfg rounds c₁
    exact ⟨c', by rw [Exec.forEach, Exec.run_bind_ok h1, h2]⟩

/-- **When recovery isolates failures.** -/
theorem isolated_iff (env : Env) (cfg : Config) (c : Coordinator) {recovered : List RecoveredTask} (now : ℚ)
    (hd : (recovered.map fun item => item.task.id).Nodup) :
    Isolated env cfg c recovered now ↔
      ∀ item ∈ recovered, ResumeSucceeds env now item (c.outside item.task.id) := by
  rcases run_recover env cfg now recovered c hd with ⟨hs, c', h1, hc, -⟩ | ⟨hno, e, c', h1⟩
  · refine iff_of_true ⟨fun item hi _ => by rw [h1]; exact hc item hi, fun rounds => ?_⟩ hs
    obtain ⟨c'', h2⟩ := run_rounds env cfg rounds c'
    rw [Coordinator.run, Exec.run_bind_ok h1, h2]
  · refine iff_of_false (fun h => ?_) hno
    have hrun := h.loop []
    rw [Coordinator.run, Exec.run_bind_error h1] at hrun
    cases hrun

theorem isolated_iff_pair : Isolated Env.faultless {} Coordinator.idle [first, second] 0 :=
  (isolated_iff Env.faultless {} Coordinator.idle 0 (by decide)).mpr (by
    have hf : (TaskState.resumed first.task first.results 0).pending ≠ ∅ := by decide +kernel
    have hs : (TaskState.resumed second.task second.results 0).pending ≠ ∅ := by decide +kernel
    simp only [List.forall_mem_cons, ResumeSucceeds, if_neg hf, if_neg hs]
    exact ⟨by decide +kernel, by decide +kernel, by simp⟩)

end MasResearch.Bugs.RecoveryIsolation
