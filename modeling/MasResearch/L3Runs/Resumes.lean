import MasResearch.L2Dispatch.Enrol
import MasResearch.L3Runs.Reloads

/-!
# What a resumed task does

`_resume` takes a task up again with the results its rows gave back. It publishes the
subtasks nobody answered for, and nothing else: with every subtask loaded it finalizes
the task at once; otherwise its first round requests, once each, the subtasks whose
dependencies are all loaded. What was loaded is settled for the rest of the run.

* `requests_first`: the requests of the first round.
* `slotInv_loaded`: a loaded subtask keeps its result and is never requested.
* `exact_resume`: the two together, over every run that follows.
-/
namespace MasResearch.L3

open MasResearch.L1 MasResearch.L2 Relation TaskState

/-- Bus and store calls do not raise. -/
def NothingRaises (env : Env) : Prop := ∀ h call, env.raises h call = false

/-- The subtask is not loaded, and all it depends on is. -/
def Opens (task : Task) (results : Dict String Content) (sid : String) : Prop :=
  ∃ sub ∈ (buildPlan task).subtasks, sub.id = sid ∧ sid ∉ results ∧ ∀ dep ∈ sub.dependsOn, dep ∈ results

instance (task : Task) (results : Dict String Content) (sid : String) : Decidable (Opens task results sid) :=
  inferInstanceAs (Decidable (∃ sub ∈ (buildPlan task).subtasks, sub.id = sid ∧ sid ∉ results ∧
    ∀ dep ∈ sub.dependsOn, dep ∈ results))

/-! ## The first round -/

section

variable {env : Env} {now : ℚ} {s : TaskState} {sid : String}

theorem requestAll_some (hq : NothingRaises env) (now : ℚ) (s : TaskState) : ∀ (subs : List Subtask) (h : List Event),
    ∃ h', requestAll env now s h subs = some h'
  | [], h => ⟨h, rfl⟩
  | sub :: subs, h => by
    rw [requestAll, hq h, if_neg (by simp)]
    exact requestAll_some hq now s subs _

theorem requests_requestAll : ∀ {subs : List Subtask} {h h' : List Event},
    requestAll env now s h subs = some h' →
    requests sid h' = requests sid h + subs.countP fun sub => sub.id = sid
  | [], h, h', he => by cases he; rfl
  | sub :: subs, h, h', he => by
    rw [requestAll] at he
    split at he
    · cases he
    · have ih := requests_requestAll he
      rw [requestEvent, requests_published] at ih
      rw [ih, List.countP_cons]
      simp only [unit, decide_eq_true_eq]
      omega

/-- Subtasks of one id are equal, so one of them is requested at most. -/
theorem countP_openSubtasks : ∀ (subs : List Subtask) (seen : Finset String),
    (∀ t ∈ subs, ∀ u ∈ subs, t.id = u.id → t = u) →
    (openSubtasks s seen subs).countP (fun sub => sub.id = sid) =
      unit (sid ∉ seen ∧ ∃ sub ∈ subs, sub.id = sid ∧ sid ∈ s.pending ∧ DepsResolved sub s.results)
  | [], seen, _ => by simp [openSubtasks]
  | sub :: subs, seen, hext => by
    have ih := fun seen => countP_openSubtasks subs seen fun t ht u hu =>
      hext t (List.mem_cons_of_mem _ ht) u (List.mem_cons_of_mem _ hu)
    rw [openSubtasks]
    by_cases hopen : sub.id ∉ seen ∧ sub.id ∈ s.pending ∧ DepsResolved sub s.results
    · rw [if_pos hopen, List.countP_cons, ih]
      by_cases he : sub.id = sid
      · subst he
        rw [unit_false (by simp), unit_true ⟨hopen.1, sub, List.mem_cons_self, rfl, hopen.2⟩]
        simp
      · simp [unit, he, Ne.symm he]
    · rw [if_neg hopen, ih]
      congr 1
      refine propext (and_congr_right fun hs => ⟨?_, ?_⟩)
      · rintro ⟨t, ht, h⟩
        exact ⟨t, List.mem_cons_of_mem _ ht, h⟩
      · rintro ⟨t, ht, rfl, hp, hd⟩
        rcases List.mem_cons.mp ht with rfl | ht
        · exact absurd ⟨hs, hp, hd⟩ hopen
        · exact ⟨t, ht, rfl, hp, hd⟩

end

section

variable {env : Env} {cfg : Config} {now : ℚ} {task : Task} {results : Dict String Content} {sid : String}

theorem pending_resumed : sid ∈ (TaskState.resumed task results now).pending ↔
    sid ∈ (buildPlan task).ids ∧ sid ∉ results := by
  simp only [TaskState.resumed, Finset.mem_filter, mem_loadedResults]
  tauto

theorem results_resumed : sid ∈ (TaskState.resumed task results now).results ↔
    sid ∈ (buildPlan task).ids ∧ sid ∈ results := by
  simp [TaskState.resumed, mem_loadedResults]

theorem depsResolved_resumed {sub : Subtask} (hs : sub ∈ (buildPlan task).subtasks) :
    DepsResolved sub (TaskState.resumed task results now).results ↔ ∀ dep ∈ sub.dependsOn, dep ∈ results :=
  forall₂_congr fun dep hd => by rw [results_resumed]; exact and_iff_right (dep_mem_ids hs hd)

theorem published_resumed : sid ∈ (TaskState.resumed task results now).published ↔
    sid ∈ (buildPlan task).ids ∧ sid ∈ results := by
  simp only [TaskState.resumed, List.mem_toFinset, Dict.mem_keys, mem_loadedResults]

/-- The open subtasks of the resumed state. -/
theorem opens_iff : (sid ∉ (TaskState.resumed task results now).published ∧
      ∃ sub ∈ (buildPlan task).subtasks, sub.id = sid ∧ sid ∈ (TaskState.resumed task results now).pending ∧
        DepsResolved sub (TaskState.resumed task results now).results) ↔ Opens task results sid := by
  constructor
  · rintro ⟨-, sub, hs, hid, hp, hd⟩
    exact ⟨sub, hs, hid, (pending_resumed.mp hp).2, (depsResolved_resumed hs).mp hd⟩
  · rintro ⟨sub, hs, hid, hn, hd⟩
    have hids : sid ∈ (buildPlan task).ids := Plan.mem_ids.mpr ⟨sub, hs, hid⟩
    exact ⟨fun hp => hn (published_resumed.mp hp).2, sub, hs, hid, pending_resumed.mpr ⟨hids, hn⟩,
      (depsResolved_resumed hs).mpr hd⟩

/-- **The first round** requests each open subtask once. -/
theorem requests_first (hq : NothingRaises env) (cfg : Config) (now : ℚ)
    (hleft : ∃ sid ∈ (buildPlan task).ids, sid ∉ results) (o : Outside) (g : Int) :
    ∃ h s', (resume env cfg task results now).run ⟨none, o, g⟩ =
        (.ok (), ⟨some s', { o with history := h }, g + 1⟩) ∧
      ∀ sid, requests sid h = requests sid o.history + unit (Opens task results sid) := by
  have hp : (TaskState.resumed task results now).pending ≠ ∅ := by
    obtain ⟨sid, hids, hn⟩ := hleft
    exact Finset.ne_empty_of_mem (pending_resumed.mpr ⟨hids, hn⟩)
  have hrun : (resume env cfg task results now).run ⟨none, o, g⟩ =
      (enrol env cfg .recovery (TaskState.resumed task results now) now).run ⟨none, o.note .recovered, g⟩ := rfl
  rw [hrun]
  rcases run_enrol_open env cfg now .recovery (unspent_resumed task results now) hp none (o.note .recovered) g
    with ⟨hnone, -⟩ | ⟨h, s', hsome, h1, -⟩
  · obtain ⟨h, hh⟩ := requestAll_some hq now (TaskState.resumed task results now)
      (openSubtasks (TaskState.resumed task results now) (TaskState.resumed task results now).published
        (buildPlan task).subtasks) (.registered .recovery :: (o.note .recovered).history)
    exact absurd (hnone.symm.trans hh) (by simp)
  · refine ⟨h, s', h1, fun sid => ?_⟩
    have hcount : requests sid h = _ := requests_requestAll hsome
    rw [requests_quiet (by simp), Outside.note_history, requests_quiet (by simp)] at hcount
    rw [hcount]
    congr 1
    refine (countP_openSubtasks (s := TaskState.resumed task results now) (buildPlan task).subtasks _
      fun t ht u hu => subtask_ext ht hu).trans ?_
    congr 1
    exact propext opens_iff

end

/-! ## The rest of the run -/

/-- The subtask came with this result and was not requested. -/
structure Loaded (sid : String) (content : Content) (v : View) : Prop where
  state : ∀ s, v.1 = some s → s.Wf ∧ s.results.get? sid = some (some content)
  requested : requests sid v.2.history = 0
  finalized : ∀ cause status s, Event.finalizing cause status s ∈ v.2.history →
    s.results.get? sid = some (some content)

theorem slotInv_loaded (env : Env) (cfg : Config) (sid : String) (content : Content) :
    SlotInv env cfg (Loaded sid content) where
  step := by
    intro now v v' hv hs
    have hheld : ResultHeld sid 0 v :=
      ⟨fun s he => ⟨(hv.state s he).1, Dict.mem_of_get? (hv.state s he).2⟩, hv.requested⟩
    have hreq := (resultHeld_step hheld hs).2
    cases hs with
    | @move s o c hm =>
      obtain ⟨hwf, hres⟩ := hv.state s rfl
      refine ⟨fun s' he => ?_, hreq, ?_⟩
      · cases he
        exact ⟨Wf.move hwf hm, extends_move hwf hm sid _ hres⟩
      · have hfin := hv.finalized
        cases hm with
        | ready => simpa [Ctx.published] using hfin
        | skip => exact hfin
        | expire => exact hfin
        | again => simpa [Ctx.published, Ctx.update] using hfin
    | finalizing cause hf =>
      refine ⟨hv.state, hreq, fun cause' status' s' hm => ?_⟩
      rcases List.mem_cons.mp hm with he | hm
      · cases he; exact (hv.state _ rfl).2
      · exact hv.finalized _ _ _ hm
    | recorded hq =>
      refine ⟨hv.state, hreq, fun cause' status' s' hm => ?_⟩
      obtain ⟨e, he, hh⟩ := hq
      rw [hh] at hm
      rcases List.mem_cons.mp hm with rfl | hm
      · cases he
      · exact hv.finalized _ _ _ hm
    | closed => exact ⟨fun _ he => (by cases he), hreq, hv.finalized⟩
  routed := by
    intro now m s o jobs s' hv hr
    obtain ⟨hwf, hres⟩ := hv.state s rfl
    refine ⟨fun u he => ?_, ?_, fun cause status u hm => hv.finalized cause status u (by simpa using hm)⟩
    · cases he
      exact ⟨Wf.routed hwf hr, extends_routed hwf hr sid _ hres⟩
    · exact (requests_quiet (by simp)).trans hv.requested

section

variable {env : Env} {cfg : Config} {now : ℚ} {task : Task} {results : Dict String Content} {sid : String}
  {content : Content}

theorem get?_resumed (now : ℚ) (hids : sid ∈ (buildPlan task).ids) (hc : results.get? sid = some content) :
    (TaskState.resumed task results now).results.get? sid = some (some content) := by
  simp [TaskState.resumed, loadedResults, hids, hc]

theorem loaded_resume (env : Env) (cfg : Config) (now : ℚ) (hids : sid ∈ (buildPlan task).ids)
    (hc : results.get? sid = some content) {o : Outside} (ho : o.history = []) :
    Loaded sid content ((resume env cfg task results now).run ⟨none, o, 0⟩).2.view := by
  have hwf := (exact_resumed task results now).toWf
  have hget := get?_resumed now hids hc
  have hrun : (resume env cfg task results now).run ⟨none, o, 0⟩ =
      (enrol env cfg .recovery (TaskState.resumed task results now) now).run ⟨none, o.note .recovered, 0⟩ := rfl
  obtain ⟨r, l', h1, -, hcase⟩ :=
    enrol_spec env cfg hwf (nothingDue_resumed task results now) .recovery (o.note .recovered) 0
  rw [hrun, h1]
  rcases hcase with ⟨-, hs⟩ | ⟨-, hn, hq⟩
  · refine (slotInv_loaded env cfg sid content).steps hs ⟨fun s he => ?_, ?_, ?_⟩
    · cases he; exact ⟨hwf, hget⟩
    · simp [ho, requests_quiet]
    · simp [ho]
  · have hs : ReflTransGen (SlotStep env cfg now) (none, _) (none, l'.outside) := recorded_star hq
    rw [Slot.view, hn]
    refine (slotInv_loaded env cfg sid content).steps hs ⟨fun _ he => (by cases he), ?_, ?_⟩
    · simp [ho, requests_quiet]
    · intro cause status s hm
      simp only [Outside.note_history, ho, List.mem_cons, List.not_mem_nil, or_false, reduceCtorEq] at hm
      cases hm
      exact hget

/-- What a finalization announces and records, when no store call raises. -/
structure Finalized (env : Env) (now : ℚ) (s : TaskState) (status : TaskStatus) (o o' : Outside) : Prop where
  announced : Event.finalizing .resolved status s ∈ o'.history
  requested : ∀ sid, requests sid o'.history = requests sid o.history
  registered : ∀ who, Event.registered who ∈ o'.history → Event.registered who ∈ o.history
  stored : ∀ a row, assembleArtifact env.validators s status now = .ok a → o.row = some row →
    o'.row = some { row with finalArtifact := some a, stats := some a.stats, status := status }

theorem finalized_of_outcome (hq : NothingRaises env) {s : TaskState} {o o' : Outside} {r : Except PyError Unit}
    (hf : FinalizeOutcome env .resolved now s o r o') :
    Finalized env now s (determineFinalStatus s.plan s.results) o o' := by
  cases hf with
  | rejected ha =>
    refine ⟨by simp [Outside.finalizing], fun sid => ?_, by simp [Outside.finalizing], fun a row ha' => ?_⟩
    · exact requests_quiet (by simp)
    · rw [ha] at ha'; cases ha'
  | unsaved e ha hr =>
    refine ⟨by simp [Outside.finalizing], fun sid => ?_, by simp [Outside.finalizing], fun a row _ hrow => ?_⟩
    · simp [Outside.finalizing, requests_quiet]
    · rw [hq, hrow] at hr; simp at hr
  | unset e ha hr => rw [hq] at hr; cases hr
  | @stored a ha hrow _ _ =>
    refine ⟨by simp [Outside.finalizing, Outside.withArtifact, Outside.withStatus], fun sid => ?_,
      by simp [Outside.finalizing, Outside.withArtifact, Outside.withStatus], fun a' row ha' hrow' => ?_⟩
    · simp [Outside.finalizing, Outside.withArtifact, Outside.withStatus, requests_quiet]
    · obtain rfl : a = a' := Except.ok.inj (ha.symm.trans ha')
      simp [Outside.finalizing, Outside.withArtifact, Outside.withStatus, hrow', assembleArtifact_status ha]

/-- **Everything is loaded**: the task is finalized as completed, and nothing else is done for it. -/
theorem resume_done (hq : NothingRaises env) (cfg : Config) (now : ℚ)
    (hall : ∀ sid ∈ (buildPlan task).ids, sid ∈ results) (o : Outside) (g : Int) :
    ∃ r o', (resume env cfg task results now).run ⟨none, o, g⟩ = (r, ⟨none, o', g⟩) ∧
      Finalized env now (TaskState.resumed task results now) .completed (o.note .recovered) o' := by
  have hp : (TaskState.resumed task results now).pending = ∅ := by
    refine Finset.eq_empty_of_forall_notMem fun sid hm => ?_
    obtain ⟨hids, hn⟩ := pending_resumed.mp hm
    exact hn (hall sid hids)
  have hstatus : determineFinalStatus (buildPlan task) (TaskState.resumed task results now).results =
      .completed := by
    refine determineFinalStatus_completed.mpr fun sub hs => ?_
    have hids : sub.id ∈ (buildPlan task).ids := Plan.mem_ids.mpr ⟨sub, hs, rfl⟩
    exact (unspent_resumed task results now).contents sub.id (results_resumed.mpr ⟨hids, hall sub.id hids⟩)
  obtain ⟨r, o', h1, hf⟩ := run_enrol_done env cfg now .recovery hp none (o.note .recovered) g
  refine ⟨r, o', h1, ?_⟩
  rw [← hstatus]
  exact finalized_of_outcome hq hf

/-- **Exact resume.** -/
theorem exact_resume {env : Env} (hq : NothingRaises env) (cfg : Config) {c : Coordinator}
    (hr : (runs .any env cfg).Reachable c) {task : Task} (hf : Fresh c task.id)
    (results : Dict String Content) (now : ℚ) :
    ((∀ sid ∈ (buildPlan task).ids, sid ∈ results) →
      (next env cfg c (.resume task results now)).tasks.get? task.id = none ∧
      (∀ who, Event.registered who ∉ ((next env cfg c (.resume task results now)).outside task.id).history) ∧
      (∀ sid, requests sid ((next env cfg c (.resume task results now)).outside task.id).history = 0) ∧
      Finalized env now (TaskState.resumed task results now) .completed (c.outside task.id)
        ((next env cfg c (.resume task results now)).outside task.id)) ∧
    ((∃ sid ∈ (buildPlan task).ids, sid ∉ results) →
      ((next env cfg c (.resume task results now)).tasks.get? task.id).isSome = true ∧
      ∀ sid, requests sid ((next env cfg c (.resume task results now)).outside task.id).history =
        unit (Opens task results sid)) ∧
    ∀ as c', (runs .any env cfg).Run (next env cfg c (.resume task results now)) as c' →
      ∀ sid ∈ (buildPlan task).ids, ∀ content, results.get? sid = some content →
        requests sid (c'.outside task.id).history = 0 ∧
        (∀ s, c'.tasks.get? task.id = some s → s.results.get? sid = some (some content)) ∧
        ∀ cause status s, Event.finalizing cause status s ∈ (c'.outside task.id).history →
          s.results.get? sid = some (some content) := by
  have hnext := next_resume env cfg hf results now
  refine ⟨fun hall => ?_, fun hleft => ?_, fun as c' hrun sid hids content hc => ?_⟩
  · obtain ⟨r, o', h1, hd⟩ := resume_done hq cfg now hall (c.outside task.id) 0
    rw [hnext, h1, tasks_putSlot_self, outside_putSlot_self]
    have hreg : ∀ who, Event.registered who ∉ o'.history := fun who hm => by
      have := hd.registered who hm
      simp [hf.2] at this
    have hreq : ∀ sid, requests sid o'.history = requests sid (c.outside task.id).history := fun sid => by
      rw [hd.requested, Outside.note_history, requests_quiet (by simp)]
    refine ⟨rfl, hreg, fun sid => ?_, hd.announced, hreq, fun who hm => absurd hm (hreg who), hd.stored⟩
    rw [hreq, hf.2]; rfl
  · obtain ⟨h, s', h1, hcount⟩ := requests_first hq cfg now hleft (c.outside task.id) 0
    rw [hnext, h1, tasks_putSlot_self, outside_putSlot_self]
    refine ⟨rfl, fun sid => ?_⟩
    rw [hcount, hf.2, requests_nil, Nat.zero_add]
  · have hkb := (begun_inductive .any env cfg).reachable c hr
    have hallows : Assumptions.any.allows env c (.resume task results now) := ⟨trivial, hf⟩
    have hstart : Loaded sid content ((next env cfg c (.resume task results now)).slot task.id).view := by
      rw [hnext, slot_putSlot_self]
      exact loaded_resume env cfg now hids hc hf.2
    have hne : ((next env cfg c (.resume task results now)).outside task.id).history ≠ [] := by
      rw [hnext, outside_putSlot_self]
      exact history_resume env cfg task results now _
    have hend := (slotInv_loaded env cfg sid content).run hrun (keyed_next hkb.1 ⟨hallows, fun _ => trivial⟩)
      (begun_next hkb.1 hkb.2 hallows) hne hstart
    exact ⟨hend.requested, fun s hs => (hend.state s hs).2, hend.finalized⟩

end

/-- The transcript of `course` was saved before the restart. -/
def saved : Dict String Content := (∅ : Dict String Content).set "st-t1-F1" []

/-- So was its summary. -/
def complete : Dict String Content := saved.set "st-t1-F3" informedSummary

theorem exact_resume_course :
    requests "st-t1-F3" ((next Env.faultless {} Coordinator.idle (.resume course saved 0)).outside "t1").history = 1 ∧
    (∀ as c', (runs .any Env.faultless {}).Run (next Env.faultless {} Coordinator.idle (.resume course saved 0)) as c' →
      requests "st-t1-F1" (c'.outside "t1").history = 0) ∧
    (next Env.faultless {} Coordinator.idle (.resume course complete 0)).tasks.get? "t1" = none := by
  have hr : (runs .any Env.faultless {}).Reachable Coordinator.idle := ⟨_, [], initial_idle, .nil _⟩
  have hrest := exact_resume (show NothingRaises Env.faultless from fun _ _ => rfl) {} hr
    (show Fresh Coordinator.idle course.id from ⟨rfl, rfl⟩)
  obtain ⟨-, hopen, hkept⟩ := hrest saved 0
  refine ⟨?_, fun as c' hrun => ?_, ?_⟩
  · exact ((hopen ⟨"st-t1-F3", by decide, by decide⟩).2 "st-t1-F3").trans (by decide)
  · exact (hkept as c' hrun "st-t1-F1" (by decide) [] rfl).1
  · exact ((hrest complete 0).1 (by decide)).1

end MasResearch.L3
