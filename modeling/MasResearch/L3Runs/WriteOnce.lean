import MasResearch.L3Runs.Audit

/-!
# Results are written once and persisted once

An entry of `results` is final: later transitions keep it, and a reply for its subtask
leaves the whole `TaskState` alone. Persisting follows: over a whole run exactly one
persist job is queued for each subtask that some INFORM resolved, with the subtask's
operation and the content its `results` entry has from then on, and no job is queued
for any other subtask.

`Trailed` is the invariant of a task's log: each entry is a `Routed` step of a
well-formed state, and the state an entry left is extended by the state the next one
found. Two entries that resolve the same subtask would contradict each other.
-/
namespace MasResearch.L3

open MasResearch.L1 MasResearch.L2 Relation TaskState

/-- The reply resolves the pending subtask `sid` with its content. -/
def Routing.Resolves (r : Routing) (sid : String) : Prop :=
  r.reply.subtaskId = some sid ∧ sid ∈ r.before.pending ∧ r.reply.performative ≠ .refuse

instance instDecidableResolves (r : Routing) (sid : String) : Decidable (r.Resolves sid) :=
  inferInstanceAs (Decidable (_ ∧ _ ∧ _))

/-- The job persists the result of the task's subtask `sid`. -/
def isFor (tid sid : String) (job : Job) : Bool := job.taskId = tid ∧ subtaskIdFor tid job.operation = sid

/-! ## Entries -/

/-- The entry is a step of a well-formed state of the task its reply names. -/
structure Routing.Sound (r : Routing) : Prop where
  wf : r.before.Wf
  task : r.before.task.id = r.reply.taskId
  routed : ∃ env now, Routed env now r.reply r.before r.jobs r.after

section

variable {r : Routing} {tid sid : String}

/-- A reply that resolves its subtask queues the one job for it and enters its content. -/
theorem Routing.Sound.resolved (h : r.Sound) (hr : r.Resolves sid) :
    (∃ op, r.jobs = [⟨r.reply.taskId, op, r.reply.content⟩] ∧ subtaskIdFor r.reply.taskId op = sid) ∧
      r.after.results.get? sid = some (some r.reply.content) := by
  obtain ⟨reply, s, jobs, s'⟩ := r
  obtain ⟨hsid, hp, hperf⟩ := hr
  obtain ⟨env, now, hrt⟩ := h.routed
  have hrt : Routed env now reply s jobs s' := hrt
  have htask : s.task.id = reply.taskId := h.task
  cases hrt with
  | ignored hi => exact absurd hp (hi sid hsid)
  | refused _ _ href => exact absurd href hperf
  | @informed sid' sub hsid' _ _ hg =>
    obtain rfl : sid' = sid := Option.some.inj (hsid'.symm.trans hsid)
    obtain ⟨hsub, hid⟩ := Plan.mem_of_get? hg
    have hplan : s.plan = buildPlan s.task := h.wf.plan_eq
    rw [hplan] at hsub
    obtain ⟨op, -, rfl⟩ := mem_buildPlan.mp hsub
    exact ⟨⟨op, by rw [← htask]; rfl, by rw [← htask]; exact hid⟩, by simp [inform]⟩

/-- A reply that resolves nothing queues nothing. -/
theorem Routing.Sound.unresolved (h : r.Sound) (hr : ∀ sid, ¬ r.Resolves sid) : r.jobs = [] := by
  obtain ⟨reply, s, jobs, s'⟩ := r
  obtain ⟨env, now, hrt⟩ := h.routed
  have hrt : Routed env now reply s jobs s' := hrt
  cases hrt with
  | ignored => rfl
  | refused => rfl
  | informed hsid hp hperf _ => exact absurd ⟨hsid, hp, hperf⟩ (hr _)

/-- The jobs of an entry for a subtask it does not resolve. -/
theorem Routing.Sound.filter_jobs (h : r.Sound) (hr : r.reply.taskId = tid → ¬ r.Resolves sid) :
    r.jobs.filter (isFor tid sid) = [] := by
  by_cases hany : ∃ k, r.Resolves k
  · obtain ⟨k, hk⟩ := hany
    obtain ⟨⟨op, hjobs, hop⟩, -⟩ := h.resolved hk
    rw [hjobs, List.filter_eq_nil_iff]
    intro job hm
    obtain rfl := List.mem_singleton.mp hm
    simp only [isFor, decide_eq_true_eq, not_and]
    rintro rfl
    rw [hop]
    rintro rfl
    exact hr rfl hk
  · rw [h.unresolved (not_exists.mp hany)]; rfl

end

/-! ## Logs -/

structure Trailed (log : List Routing) : Prop where
  sound : ∀ r ∈ log, r.Sound
  ordered : log.Pairwise fun r r' => Extends r.after.results r'.before.results

section

variable {log : List Routing} {tid sid : String}

theorem Routing.Sound.not_resolves {r : Routing} (h : r.Sound) {v : Option Content}
    (hv : r.before.results.get? sid = some v) : ¬ r.Resolves sid :=
  fun hr => h.wf.disjoint sid hr.2.1 (Dict.mem_of_get? hv)

/-- No job is queued for a subtask that no entry resolves. -/
theorem filter_queued_nil : ∀ {log : List Routing}, (∀ r ∈ log, r.Sound) →
    (∀ r ∈ log, r.reply.taskId = tid → ¬ r.Resolves sid) → (queued log).filter (isFor tid sid) = []
  | [], _, _ => rfl
  | r :: log, hs, hr => by
    rw [List.forall_mem_cons] at hs hr
    rw [queued_cons, List.filter_append, hs.1.filter_jobs hr.1, List.nil_append]
    exact filter_queued_nil hs.2 hr.2

/-- The entry that resolves a subtask queues the only job for it. -/
theorem filter_queued_resolved (h : Trailed log) {r : Routing} (hm : r ∈ log) (hid : r.reply.taskId = tid)
    (hr : r.Resolves sid) :
    ∃ op, (queued log).filter (isFor tid sid) = [⟨tid, op, r.reply.content⟩] := by
  obtain ⟨as, bs, rfl⟩ := List.append_of_mem hm
  have hs : ∀ k ∈ as ++ r :: bs, k.Sound := h.sound
  obtain ⟨⟨op, hjobs, hop⟩, hres⟩ := (hs r hm).resolved hr
  obtain ⟨-, hrb, hab⟩ := List.pairwise_append.mp h.ordered
  have hab : ∀ k ∈ as, Extends k.after.results r.before.results := fun k hk => hab k hk r List.mem_cons_self
  -- an earlier entry for the subtask would have taken it out of `pending`
  have has : ∀ k ∈ as, k.reply.taskId = tid → ¬ k.Resolves sid := by
    intro k hk _ hkr
    have hkres := ((hs k (List.mem_append_left _ hk)).resolved hkr).2
    exact (hs r hm).not_resolves (hab k hk sid _ hkres) hr
  have hbs : ∀ k ∈ bs, k.reply.taskId = tid → ¬ k.Resolves sid := by
    intro k hk _
    have hkm : k ∈ as ++ r :: bs := List.mem_append_right _ (List.mem_cons_of_mem _ hk)
    exact (hs k hkm).not_resolves ((List.pairwise_cons.mp hrb).1 k hk sid _ hres)
  have hsa : ∀ k ∈ as, k.Sound := fun k hk => hs k (List.mem_append_left _ hk)
  have hsb : ∀ k ∈ bs, k.Sound := fun k hk => hs k (List.mem_append_right _ (List.mem_cons_of_mem _ hk))
  refine ⟨op, ?_⟩
  have hself : isFor tid sid ⟨r.reply.taskId, op, r.reply.content⟩ = true := by
    simp [isFor, hid, ← hop]
  rw [queued_append, queued_cons, List.filter_append, List.filter_append, filter_queued_nil hsa has,
    filter_queued_nil hsb hbs, hjobs, List.filter_cons_of_pos hself, hid]
  rfl

/-- The jobs for a task's subtask are queued by the entries of the task. -/
theorem filter_queued_ofTask : ∀ {log : List Routing}, (∀ r ∈ log, r.Sound) →
    (queued log).filter (isFor tid sid) = (queued (ofTask tid log)).filter (isFor tid sid)
  | [], _ => rfl
  | r :: log, hs => by
    rw [List.forall_mem_cons] at hs
    have ih := filter_queued_ofTask hs.2
    rw [queued_cons, List.filter_append, ih]
    by_cases hid : r.reply.taskId = tid
    · rw [ofTask_cons_self hid, queued_cons, List.filter_append]
    · rw [ofTask_cons_ne hid, hs.1.filter_jobs fun h => absurd h hid, List.nil_append]

end

/-! ## Runs -/

/-- Each finalization came after the entry, or before it. -/
def Placed (h : List Event) (log : List Routing) : Prop := ∀ r ∈ log, ∀ cause status s,
  Event.finalizing cause status s ∈ h → Extends r.after.results s.results ∨ Extends s.results r.before.results

theorem Placed.cons {h : List Event} {log : List Routing} (hp : Placed h log) {e : Event}
    (he : ∀ cause status s, e ≠ .finalizing cause status s) : Placed (e :: h) log := by
  intro r hr cause status s hm
  rcases List.mem_cons.mp hm with rfl | hm
  · exact absurd rfl (he _ _ _)
  · exact hp r hr cause status s hm

/-- What a registered state knows of its history and its log. -/
structure LogOf (s : TaskState) (h : List Event) (log : List Routing) : Prop where
  chronicle : Chronicle s h
  trailed : Trailed log
  placed : Placed h log
  below : ∀ r ∈ log, Extends r.after.results s.results

theorem LogOf.quiet {s s' : TaskState} {h h' : List Event} {log : List Routing} (hl : LogOf s h log)
    (hc : Chronicle s' h') (hp : Placed h' log) (hx : Extends s.results s'.results) : LogOf s' h' log :=
  ⟨hc, hl.trailed, hp, fun r hr => (hl.below r hr).trans hx⟩

theorem logInv_trailed (A : Assumptions) (env : Env) (cfg : Config) :
    LogInv A env cfg LogOf fun h log => Trailed log ∧ Placed h log where
  submitted task now hs := ⟨(taskInv_chronicle A env cfg).submitted task now hs, ⟨by simp, .nil⟩,
    by simp [Placed], by simp⟩
  resumed task results now hs := ⟨(taskInv_chronicle A env cfg).resumed task results now hs, ⟨by simp, .nil⟩,
    by simp [Placed], by simp⟩
  move := by
    intro now s o c log hl hwf hm ht
    have hc := (taskInv_chronicle A env cfg).move hl.chronicle hwf hm ht
    have hx : Extends s.results c.state.results := extends_move (c := ⟨s, o⟩) hwf hm
    refine hl.quiet hc ?_ hx
    cases hm with
    | ready => exact hl.placed.cons (by simp)
    | skip => exact hl.placed
    | expire => exact hl.placed
    | again => exact hl.placed.cons (by simp)
  routed := by
    intro now s h m jobs s' log hl hwf hid ha hr
    have hc := (taskInv_chronicle A env cfg).routed hl.chronicle hwf ha hr
    have hx : Extends s.results s'.results := extends_routed hwf hr
    refine ⟨hc, ⟨?_, ?_⟩, ?_, ?_⟩
    · intro r hm
      rcases List.mem_append.mp hm with hm | hm
      · exact hl.trailed.sound r hm
      · obtain rfl := List.mem_singleton.mp hm
        exact ⟨hwf, hid.symm, env, now, hr⟩
    · refine List.pairwise_append.mpr ⟨hl.trailed.ordered, List.pairwise_singleton _ _, ?_⟩
      intro r hm r' hm'
      obtain rfl := List.mem_singleton.mp hm'
      exact hl.below r hm
    · intro r hm cause status sf hf
      have hf : Event.finalizing cause status sf ∈ h := by simpa using hf
      rcases List.mem_append.mp hm with hm | hm
      · exact hl.placed r hm cause status sf hf
      · obtain rfl := List.mem_singleton.mp hm
        exact .inr (hl.chronicle.below _ hf _ rfl)
    · intro r hm
      rcases List.mem_append.mp hm with hm | hm
      · exact (hl.below r hm).trans hx
      · obtain rfl := List.mem_singleton.mp hm
        exact Extends.refl _
  finalizing := by
    intro now s h log cause hl hwf hf
    refine hl.quiet ((taskInv_chronicle A env cfg).finalizing cause hl.chronicle hwf hf) ?_ (Extends.refl _)
    intro r hr cause' status' s' hm
    rcases List.mem_cons.mp hm with he | hm
    · cases he; exact .inl (hl.below r hr)
    · exact hl.placed r hr cause' status' s' hm
  recorded hl hq := hl.quiet ((taskInv_chronicle A env cfg).recorded hl.chronicle hq)
    (hl.placed.cons (by rintro _ _ _ rfl; cases hq)) (Extends.refl _)
  history hl := ⟨hl.trailed, hl.placed⟩
  empty := ⟨⟨by simp, .nil⟩, by simp [Placed]⟩
  quiet hk hq := ⟨hk.1, hk.2.cons (by rintro _ _ _ rfl; cases hq)⟩

/-- Only `tid` is not started (again). -/
def Assumptions.others (tid : String) : Assumptions where
  submits task := task.id ≠ tid
  resumes task _ := task.id ≠ tid

theorem routable_others (tid : String) (env : Env) (now : ℚ) : ∀ (ms : List Message) (l : Slot),
    (Assumptions.others tid).routable env now ms l
  | [], _ => trivial
  | _ :: ms, _ => ⟨fun _ _ => trivial, routable_others tid env now ms _⟩

/-- A task something was done for is not started again. -/
theorem admissible_others {A : Assumptions} {env : Env} {cfg : Config} {c : Coordinator} {a : Action}
    {tid : String} (ha : Admissible A env cfg c a) (hh : (c.outside tid).history ≠ []) :
    Admissible (.others tid) env cfg c a := by
  refine ⟨?_, fun _ => trivial⟩
  have hs := ha.allowed
  cases a with
  | submit task now => exact ⟨by rintro rfl; exact hh hs.2.2, hs.2⟩
  | resume task results now => exact ⟨by rintro rfl; exact hh hs.2.2, hs.2⟩
  | tick batch now => exact fun replies _ tid' => routable_others tid env now _ _

/-- The results of a task that started with `base` extend it. -/
theorem taskInv_extends (env : Env) (cfg : Config) (tid : String) (base : Results) :
    TaskInv (.others tid) env cfg (fun s _ => s.task.id = tid → Extends base s.results) fun _ => True where
  submitted _ _ hs he := absurd he hs
  resumed _ _ _ hs he := absurd he hs
  move h hwf hm _ he := (h (by rw [← hm.frame.1]; exact he)).trans (extends_move hwf hm)
  routed h hwf _ hr he := (h (by rw [← hr.frame.1]; exact he)).trans (extends_routed hwf hr)
  finalizing _ h _ _ := h
  recorded h _ := h
  history _ := trivial
  empty := trivial
  quiet _ _ := trivial

/-- Along a run the results of a task grow. -/
theorem extends_run {A : Assumptions} {env : Env} {cfg : Config} {c c' : Coordinator} {as : List Action}
    (hr : (runs A env cfg).Run c as c') {tid : String} {s s' : TaskState} (hk : Keyed c) (hb : Begun c)
    (hs : c.tasks.get? tid = some s) (hs' : c'.tasks.get? tid = some s') : Extends s.results s'.results := by
  let P (c : Coordinator) : Prop := TaskInv.OnSlots (fun u _ => u.task.id = tid → Extends s.results u.results)
    (fun _ => True) c ∧ Begun c ∧ (c.outside tid).history ≠ []
  have hstep : ∀ {c : Coordinator} {as : List Action} {c' : Coordinator}, (runs A env cfg).Run c as c' →
      P c → P c' := by
    intro c as c' hrun
    induction hrun with
    | nil => exact id
    | cons hstep _ ih =>
      obtain ⟨ha, rfl⟩ := hstep
      intro hp
      refine ih ⟨?_, begun_next hp.1.1 hp.2.1 ha.allowed, history_next hp.1.1 hp.2.1 ha.allowed (.inl hp.2.2)⟩
      exact (taskInv_extends env cfg tid s.results).invariant.step _ _ _ hp.1 ⟨admissible_others ha hp.2.2, rfl⟩
  have hstart : P c := by
    refine ⟨⟨hk, fun k => ⟨fun u hu he => ?_, trivial⟩⟩, hb, hb tid s hs⟩
    have hu : c.tasks.get? k = some u := hu
    rw [← (hk k u hu).2, he, hs] at hu
    cases hu
    exact Extends.refl _
  have hend := hstep hr hstart
  exact ((hend.1.2 tid).1 s' hs') (hend.1.1 tid s' hs').2

/-- A reply for a resolved subtask changes nothing. -/
theorem run_routeReply_resolved (env : Env) (now : ℚ) {reply : Message} {s : TaskState} (h : s.Wf) {sid : String}
    (hsid : reply.subtaskId = some sid) (hres : sid ∈ s.results) (o : Outside) :
    (routeReply env reply now).run ⟨s, o⟩ = (.ok [], ⟨s, o⟩) := by
  have hp : sid ∉ s.pending := fun hp => h.disjoint sid hp hres
  simp only [routeReply, Exec.run_bind, Exec.run_get, hsid, hp, not_false_eq_true, if_true, Exec.run_pure]

/-- **Results are written once and persisted once.** -/
theorem results_written_once (env : Env) (cfg : Config) {p : Audited}
    (hr : (audited .any env cfg).Reachable p) (tid : String) :
    (∀ s, p.coordinator.tasks.get? tid = some s → ∀ sid v, s.results.get? sid = some v →
      (∀ reply now o, reply.subtaskId = some sid →
        (routeReply env reply now).run ⟨s, o⟩ = (.ok [], ⟨s, o⟩)) ∧
      ∀ as p' s', (audited .any env cfg).Run p as p' → p'.coordinator.tasks.get? tid = some s' →
        s'.results.get? sid = some v) ∧
    ∀ sid,
      ((∃ r ∈ p.log, r.reply.taskId = tid ∧ r.Resolves sid) →
        ∃ job, p.jobs.filter (isFor tid sid) = [job] ∧
          (∀ r ∈ p.log, r.reply.taskId = tid → r.Resolves sid → r.reply.content = job.content) ∧
          (∀ s, p.coordinator.tasks.get? tid = some s → s.results.get? sid = some (some job.content)) ∧
          ∀ cause status s, Event.finalizing cause status s ∈ (p.coordinator.outside tid).history →
            sid ∈ s.results → s.results.get? sid = some (some job.content)) ∧
      ((¬ ∃ r ∈ p.log, r.reply.taskId = tid ∧ r.Resolves sid) → p.jobs.filter (isFor tid sid) = []) := by
  have hslots := (logInv_trailed .any env cfg).onAudited.reachable p hr
  have hkb := (begun_inductive .any env cfg).reachable p.coordinator (reachable_of_audited hr)
  have hsound : ∀ r ∈ p.log, r.Sound := fun r hm =>
    (hslots.2 r.reply.taskId).told.1.sound r (mem_ofTask.mpr ⟨hm, rfl⟩)
  have htr := (hslots.2 tid).told.1
  refine ⟨fun s hs sid v hv => ⟨fun reply now o hsid => ?_, fun as p' s' hrun hs' => ?_⟩, fun sid => ⟨?_, ?_⟩⟩
  · exact run_routeReply_resolved env now (hslots.1 tid s hs).1 hsid (Dict.mem_of_get? hv) o
  · exact extends_run (run_of_audited hrun) hkb.1 hkb.2 hs hs' sid v hv
  · rintro ⟨r, hm, hid, hres⟩
    have hmt : r ∈ ofTask tid p.log := mem_ofTask.mpr ⟨hm, hid⟩
    obtain ⟨op, hjob⟩ := filter_queued_resolved htr hmt hid hres
    have hafter := ((hsound r hm).resolved hres).2
    rw [← filter_queued_ofTask hsound, ← jobs_of_reachable hr] at hjob
    refine ⟨_, hjob, fun r' hm' hid' hres' => ?_, fun s hs => ?_, fun cause status s hf hin => ?_⟩
    · obtain ⟨op', hjob'⟩ := filter_queued_resolved htr (mem_ofTask.mpr ⟨hm', hid'⟩) hid' hres'
      rw [← filter_queued_ofTask hsound, ← jobs_of_reachable hr, hjob] at hjob'
      exact (congrArg Job.content (List.singleton_inj.mp hjob')).symm
    · exact ((hslots.2 tid).state s hs).below r hmt sid _ hafter
    · rcases (hslots.2 tid).told.2 r hmt cause status s hf with hx | hx
      · exact hx sid _ hafter
      · obtain ⟨v, hv⟩ := Dict.exists_get? hin
        exact absurd hres ((hsound r hm).not_resolves (hx sid v hv))
  · intro hnone
    rw [jobs_of_reachable hr]
    exact filter_queued_nil hsound fun r hm hid hres => hnone ⟨r, hm, hid, hres⟩

theorem results_written_once_course :
    ∃ s job, taught.coordinator.tasks.get? "t1" = some s ∧
      taught.jobs.filter (isFor "t1" "st-t1-F1") = [job] ∧
      s.results.get? "st-t1-F1" = some (some job.content) := by
  obtain ⟨s, hs⟩ := Option.isSome_iff_exists.mp
    (show (taught.coordinator.tasks.get? "t1").isSome = true by decide +kernel)
  obtain ⟨job, hjob, -, hres, -⟩ := ((results_written_once Env.faultless {} reachable_taught "t1").2
    "st-t1-F1").1 (by decide +kernel)
  exact ⟨s, job, hs, hjob, hres s hs⟩

end MasResearch.L3
