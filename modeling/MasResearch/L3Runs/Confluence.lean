import MasResearch.L1Domain.DagEquations
import MasResearch.L3Runs.Joins

/-!
# The results of a run do not depend on its schedule

Let every agent be a function of operation and payload, let every request be
answered before its deadline, and let `_resume` preload entries of the solution
only. Then the results map of every registered task stays inside the solution of
its plan's equations (`ConfluenceInv.below`): a reply is computed from a payload
whose dependencies were resolved, hence final, and a skip or an exhausted refusal
puts `None` where the solution has `None`. No timeout ever contributes, since a
deadline in force belongs to an open request (`ConfluenceInv.awaited`).

* `finalized_results`: a task finalized with nothing pending has exactly the
  solution as its results, whatever the schedule, the order of the requested
  operations or the preloaded part.
-/
namespace MasResearch.L3

open MasResearch.L1 MasResearch.L2 Relation TaskState

/-- The deadlines of the requests no reply has followed. -/
def openDeadlines (cfg : Config) : List Event → List (String × ℚ)
  | [] => []
  | .published _ sub _ _ t :: h => (sub.id, t + cfg.timeoutFor sub.agent) :: openDeadlines cfg h
  | .routed m :: h => (openDeadlines cfg h).filter fun p => m.subtaskId ≠ some p.1
  | _ :: h => openDeadlines cfg h

/-- The message answers a request the way the agent of the operation does. -/
def AgentReply (agents : Agents) (h : List Event) (m : Message) : Prop :=
  ∃ channel sub results request t, Event.published channel sub results request t ∈ h ∧
    m.taskId = request.taskId ∧ m.subtaskId = request.subtaskId ∧
    match agents sub.operation request.content with
    | some content => m.performative = .inform ∧ m.content = content
    | none => m.performative = .refuse

/-- Agents are functions, requests are answered in time, and what is preloaded
belongs to the solution. -/
def answered (agents : Agents) (cfg : Config) : Assumptions where
  resumes task results := ∀ σ, Solves agents task σ → ∀ sid ∈ (buildPlan task).ids, ∀ content,
    results.get? sid = some content → σ.get? sid = some (some content)
  reply _ := AgentReply agents
  timely now h := ∀ p ∈ openDeadlines cfg h, now ≤ p.2
  timely_mono now e h he ht p hp := by
    cases e with
    | published => exact ht p (List.mem_cons_of_mem _ hp)
    | routed m => exact absurd rfl (he m)
    | _ => exact ht p hp

theorem own_answered (agents : Agents) (cfg : Config) : (answered agents cfg).Own :=
  fun _ _ _ ⟨channel, sub, r, request, t, hp, h1, h2, _⟩ => ⟨channel, sub, r, request, t, hp, h1, h2⟩

/-- Every finalization with nothing pending has the solution. -/
def Final (agents : Agents) (h : List Event) : Prop :=
  ∀ status s, Event.finalizing .resolved status s ∈ h → Solves agents s.task s.results

theorem Final.cons {agents : Agents} {h : List Event} (hf : Final agents h) {e : Event}
    (he : ∀ cause status s, e ≠ .finalizing cause status s) : Final agents (e :: h) := by
  intro status s hm
  rcases List.mem_cons.mp hm with rfl | hm
  · exact absurd rfl (he _ _ _)
  · exact hf _ _ hm

structure ConfluenceInv (agents : Agents) (cfg : Config) (s : TaskState) (h : List Event) : Prop where
  joins : JoinInv s h
  below : ∀ σ, Solves agents s.task σ → Extends s.results σ
  awaited : ∀ sid d, s.deadlines.get? sid = some d → (sid, d) ∈ openDeadlines cfg h
  final : Final agents h

section

variable {agents : Agents} {cfg : Config}

/-- What a request's agent answers is the final value of the subtask. -/
theorem ConfluenceInv.value_of_request {s : TaskState} {h : List Event} (hI : ConfluenceInv agents cfg s h)
    {σ : Results} (hσ : Solves agents s.task σ) {channel : String} {sub : Subtask} {r : Results}
    {request : Message} {t : ℚ} (hp : Event.published channel sub r request t ∈ h) :
    σ.get? sub.id = some (agents sub.operation request.content) := by
  obtain ⟨hsub, -, -, -, hcontent, -⟩ := hI.joins.chronicle.about _ hp
  obtain ⟨hd, hj⟩ := hI.joins.met _ _ _ _ _ hp
  have hx : Extends r σ := (hI.joins.chronicle.below _ hp r rfl).trans (hI.below σ hσ)
  rw [hσ.value_eq hx hsub hd, subtaskValue, if_pos hj, hcontent]

theorem deadlines_retryOrFail {s : TaskState} {sid reason k : String} {now d : ℚ}
    (h : (s.retryOrFail sid reason now).deadlines.get? k = some d) : s.deadlines.get? k = some d := by
  unfold retryOrFail at h
  split at h
  · simp only [TaskState.fail, Dict.get?_erase] at h
    split at h
    · cases h
    · exact h
  · exact h

/-- A request opens its own deadline and leaves the others open. -/
theorem open_published {env : Env} {now : ℚ} {c : Ctx} {sub : Subtask}
    (h : ∀ sid d, c.state.deadlines.get? sid = some d → (sid, d) ∈ openDeadlines cfg c.outside.history)
    (sid : String) (d : ℚ) (hd : (c.published env cfg now sub).state.deadlines.get? sid = some d) :
    (sid, d) ∈ openDeadlines cfg (c.published env cfg now sub).outside.history := by
  simp only [Ctx.published, markPublished, Dict.get?_set] at hd
  split at hd
  · rename_i he
    cases hd; subst he
    exact List.mem_cons_self
  · exact List.mem_cons_of_mem _ (h sid d hd)

/-- A skipped subtask is `None` in the solution as well. -/
theorem ConfluenceInv.below_skip {s : TaskState} {h : List Event} (hI : ConfluenceInv agents cfg s h)
    {sub : Subtask} (hs : sub ∈ (buildPlan s.task).subtasks) (hd : DepsResolved sub s.results)
    (hj : ¬ JoinMet sub s.results) {σ : Results} (hσ : Solves agents s.task σ) :
    Extends (s.results.set sub.id none) σ := by
  have hv := hσ.value_eq (hI.below σ hσ) hs hd
  rw [subtaskValue, if_neg hj] at hv
  exact (hI.below σ hσ).set hv

/-- The reply shows the agent's answer. -/
theorem answer_eq {sub : Subtask} {request m : Message}
    (h : match agents sub.operation request.content with
      | some content => m.performative = .inform ∧ m.content = content
      | none => m.performative = .refuse) :
    agents sub.operation request.content = if m.performative = .refuse then none else some m.content := by
  cases ha : agents sub.operation request.content with
  | none =>
    rw [ha] at h
    rw [if_pos h]
  | some content =>
    rw [ha] at h
    rw [if_neg (by rw [h.1]; decide), h.2]

/-- A routed reply puts the solution's value, if it puts one. -/
theorem ConfluenceInv.below_routed {env : Env} {now : ℚ} {s s' : TaskState} {h : List Event} {m : Message}
    {jobs : List Job} (hI : ConfluenceInv agents cfg s h) (hans : AgentReply agents h m)
    (hr : Routed env now m s jobs s') {σ : Results} (hσ : Solves agents s'.task σ) : Extends s'.results σ := by
  rw [hr.frame.1] at hσ
  obtain ⟨channel, sub, r, request, t, hp, -, hsid, hreply⟩ := hans
  rw [(hI.joins.requested _ _ _ _ _ hp).1] at hsid
  have hv := hI.value_of_request hσ hp
  rw [answer_eq hreply] at hv
  have hb := hI.below σ hσ
  cases hr with
  | ignored => exact hb
  | @refused sid hs' _ href =>
    obtain rfl : sub.id = sid := Option.some.inj (hsid.symm.trans hs')
    rw [if_pos href] at hv
    unfold retryOrFail
    split
    · exact hb.set hv
    · exact hb
  | @informed sid _ hs' _ href =>
    obtain rfl : sub.id = sid := Option.some.inj (hsid.symm.trans hs')
    rw [if_neg href] at hv
    exact hb.set hv

/-- A routed reply leaves the deadlines of the other subtasks. -/
theorem deadlines_routed {env : Env} {now : ℚ} {s s' : TaskState} {m : Message} {jobs : List Job} (hwf : s.Wf)
    (hr : Routed env now m s jobs s') {sid : String} (hsid : m.subtaskId = some sid) {k : String} {d : ℚ}
    (hd : s'.deadlines.get? k = some d) : k ≠ sid ∧ s.deadlines.get? k = some d := by
  cases hr with
  | ignored hno =>
    refine ⟨?_, hd⟩
    rintro rfl
    exact hno _ hsid (hwf.timers _ (.inl (Dict.mem_of_get? hd)))
  | @refused sid' hs' =>
    obtain rfl : sid = sid' := Option.some.inj (hsid.symm.trans hs')
    have hd := deadlines_retryOrFail (s := s.countMessage.dropDeadline sid) hd
    simpa [dropDeadline, countMessage] using hd
  | @informed sid' _ hs' =>
    obtain rfl : sid = sid' := Option.some.inj (hsid.symm.trans hs')
    simpa [inform, dropDeadline, countMessage] using hd

theorem ConfluenceInv.awaited_routed {env : Env} {now : ℚ} {s s' : TaskState} {h : List Event} {m : Message}
    {jobs : List Job} (hI : ConfluenceInv agents cfg s h) (hwf : s.Wf) (hans : AgentReply agents h m)
    (hr : Routed env now m s jobs s') {k : String} {d : ℚ} (hd : s'.deadlines.get? k = some d) :
    (k, d) ∈ openDeadlines cfg (.routed m :: h) := by
  obtain ⟨channel, sub, r, request, t, hp, -, hsid, -⟩ := hans
  rw [(hI.joins.requested _ _ _ _ _ hp).1] at hsid
  obtain ⟨hne, hd⟩ := deadlines_routed hwf hr hsid hd
  refine List.mem_filter.mpr ⟨hI.awaited k d hd, ?_⟩
  rw [hsid]
  simpa using Ne.symm hne

/-- With nothing pending the results cover the plan, so they are the solution. -/
theorem ConfluenceInv.solves {s : TaskState} {h : List Event} (hI : ConfluenceInv agents cfg s h) (hwf : s.Wf)
    (hpend : s.pending = ∅) : Solves agents s.task s.results := by
  obtain ⟨σ, hσ⟩ := exists_solves agents s.task
  refine hσ.of_get? (hσ.eq_of_total (hI.below σ hσ) fun sid hs => ?_)
  refine ((hwf.cover sid).mp hs).resolve_left fun hp => ?_
  rw [hpend] at hp
  exact absurd hp (Finset.notMem_empty _)

theorem taskInv_confluence (agents : Agents) (env : Env) (cfg : Config) :
    TaskInv (answered agents cfg) env cfg (ConfluenceInv agents cfg) (Final agents) where
  submitted task now hs :=
    { joins := (taskInv_joins (own_answered agents cfg) env cfg).submitted task now hs
      below := fun _ _ _ _ hk => by cases hk
      awaited := fun _ _ hd => by cases hd
      final := fun _ _ hm => by cases hm }
  resumed := by
    intro task results now hs
    refine ⟨(taskInv_joins (own_answered agents cfg) env cfg).resumed task results now hs,
      fun σ hσ sid v hk => ?_, fun _ _ hd => (by cases hd), fun _ _ hm => (by cases hm)⟩
    simp only [resumed, loadedResults, Dict.get?_mapVals, Dict.get?_filterKeys, decide_eq_true_eq] at hk
    split at hk
    · rename_i hids
      obtain ⟨content, hc, rfl⟩ := Option.map_eq_some_iff.mp hk
      exact hs σ hσ sid hids content hc
    · cases hk
  move := by
    intro now s o c hI hwf hm ht
    have hjoin := (taskInv_joins (own_answered agents cfg) env cfg).move hI.joins hwf hm ht
    cases hm with
    | ready =>
      exact ⟨hjoin, hI.below, open_published (c := ⟨s, o⟩) hI.awaited, hI.final.cons (by simp)⟩
    | @skip sub reason hs _ _ hd hj =>
      rw [hwf.plan_eq] at hs
      refine ⟨hjoin, fun σ hσ => hI.below_skip hs hd hj hσ, fun sid d hd => ?_, hI.final⟩
      simp only [Ctx.update, TaskState.fail, Dict.get?_erase] at hd
      split at hd
      · cases hd
      · exact hI.awaited sid d hd
    -- a deadline in force belongs to an open request, whose answer is in time
    | @expire sid d hd hlt => exact absurd hlt (not_lt.mpr (ht _ (hI.awaited sid d hd)))
    | @again sid =>
      exact ⟨hjoin, hI.below, open_published (c := ⟨s.dropRetry sid, o⟩) hI.awaited, hI.final.cons (by simp)⟩
  routed := by
    intro now s h m jobs s' hI hwf hans hr
    exact ⟨(taskInv_joins (own_answered agents cfg) env cfg).routed hI.joins hwf hans hr,
      fun σ hσ => hI.below_routed hans hr hσ, fun k d hd => hI.awaited_routed hwf hans hr hd,
      hI.final.cons (by simp)⟩
  finalizing := by
    intro now s h cause hI hwf hf
    refine ⟨(taskInv_joins (own_answered agents cfg) env cfg).finalizing cause hI.joins hwf hf, hI.below,
      hI.awaited, ?_⟩
    intro status s' hm
    rcases List.mem_cons.mp hm with he | hm
    · cases he
      exact hI.solves hwf hf
    · exact hI.final _ _ hm
  recorded := by
    intro s h e hI hq
    refine ⟨(taskInv_joins (own_answered agents cfg) env cfg).recorded hI.joins hq, hI.below,
      fun sid d hd => ?_, hI.final.cons (by rintro _ _ _ rfl; cases hq)⟩
    have := hI.awaited sid d hd
    cases e <;> first | exact this | cases hq
  history hI := hI.final
  empty _ _ hm := by cases hm
  quiet hf hq := hf.cons (by rintro _ _ _ rfl; cases hq)

/-- **Confluence.** The results a task is finalized with, the global deadline
apart, are the one solution of its plan's equations. They are the same in every
other run that finalizes a task with the same id, documents and requested
operations, in whatever order these are listed. -/
theorem finalized_results (agents : Agents) {env : Env} {cfg : Config} {c : Coordinator}
    (hr : (runs (answered agents cfg) env cfg).Reachable c) {tid : String} {status : TaskStatus} {s : TaskState}
    (hf : Event.finalizing .resolved status s ∈ (c.outside tid).history) :
    Solves agents s.task s.results ∧
    (∀ σ, Solves agents s.task σ → ∀ sid, σ.get? sid = s.results.get? sid) ∧
    ∀ env' cfg' c', (runs (answered agents cfg') env' cfg').Reachable c' → ∀ tid' status' s',
      Event.finalizing .resolved status' s' ∈ (c'.outside tid').history → s'.task.id = s.task.id →
      s'.task.documents = s.task.documents →
      (∀ op, op ∈ s'.task.requestedOutputs ↔ op ∈ s.task.requestedOutputs) →
        ∀ sid, s'.results.get? sid = s.results.get? sid := by
  have hs := (taskInv_confluence agents env cfg).histories hr tid status s hf
  refine ⟨hs, fun σ hσ => solves_unique hσ hs, fun env' cfg' c' hr' tid' status' s' hf' hid hdoc hreq => ?_⟩
  have hs' := (taskInv_confluence agents env' cfg').histories hr' tid' status' s' hf'
  exact solves_unique (solves_congr hid hdoc hreq hs') hs

end

/-! ## A run -/

/-- Every agent informs an empty content, but the one for terms refuses. -/
def terse : Agents := fun op _ => if op = .f5Terms then none else some []

/-- The summary comes, and the questions of it; the terms are refused three times, and the citations
do without. -/
def closing : Script :=
  [(some (replyOn "msg-1" .f1Transcribe .inform), 1), (some (replyOn "msg-2" .f5Terms .refuse), 2),
    (some (replyOn "msg-3" .f3Summarize .inform), 3), (some (replyOn "msg-4" .f5Terms .refuse), 4),
    (none, 8), (some (replyOn "msg-5" .f5Terms .refuse), 9), (some (replyOn "msg-6" .f4Test .inform), 10),
    (some (replyOn "msg-7" .f6Recommend .inform), 11)]

def closed : Coordinator := played Env.faultless {} (.submit workshop 0) closing

/-- A request of the history is answered as `terse` does. -/
def terseTests : Tests where
  reply _ h m := h.any fun e => match e with
    | .published _ sub _ request _ => request.taskId = m.taskId ∧ m.subtaskId = request.subtaskId ∧
        (if sub.operation = .f5Terms then m.performative = .refuse
          else m.performative = .inform ∧ m.content.isEmpty)
    | _ => false
  timely now h := (openDeadlines {} h).all fun p => now ≤ p.2

theorem sound_terseTests : terseTests.Sound (answered terse {}) where
  reply s h m ha := by
    obtain ⟨e, he, hask⟩ := List.any_eq_true.mp ha
    cases e with
    | published channel sub results request t =>
      simp only [decide_eq_true_eq] at hask
      obtain ⟨htask, hsid, hanswer⟩ := hask
      refine ⟨channel, sub, results, request, t, he, htask.symm, hsid, ?_⟩
      by_cases hop : sub.operation = .f5Terms
      · simpa [terse, hop] using hanswer
      · simpa [terse, hop] using hanswer
    | _ => cases hask
  timely now h ht p hp := of_decide_eq_true (List.all_eq_true.mp ht p hp)
  idle now p hp := absurd hp List.not_mem_nil

theorem plays_closing : terseTests.plays Env.faultless {} "t1" (.submit workshop 0) closing = true := by
  decide +kernel

/-- A finalization with nothing pending, citations and no terms. -/
def resolves : Event → Bool
  | .finalizing .resolved _ s => (s.results.content? "st-t1-F5").isNone ∧ (s.results.content? "st-t1-F6").isSome
  | _ => false

theorem finalized_results_closed : ∃ status s, Event.finalizing .resolved status s ∈ (closed.outside "t1").history ∧
    (s.results.content? "st-t1-F5").isNone = true ∧ (s.results.content? "st-t1-F6").isSome = true ∧
      Solves terse s.task s.results := by
  have hr : (runs (answered terse {}) Env.faultless {}).Reachable closed :=
    LTS.reachable_foldl initial_idle (sound_terseTests.admits_submit trivial plays_closing)
  obtain ⟨e, he, hfin⟩ :=
    List.any_eq_true.mp (show (closed.outside "t1").history.any resolves = true by decide +kernel)
  cases e with
  | finalizing cause status s =>
    cases cause with
    | resolved =>
      simp only [resolves, decide_eq_true_eq] at hfin
      exact ⟨status, s, he, hfin.1, hfin.2, (finalized_results terse hr he).1⟩
    | deadline => cases hfin
  | _ => cases hfin

end MasResearch.L3
