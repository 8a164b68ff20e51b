import MasResearch.L3Runs.System

/-!
# Where the contents of a results map come from

`ContentInv` is the rule: what is known of a content when it is loaded or informed, and does
not depend on what comes later, is known of every content of every registered task and of
every finalization.

* `results_correlated`: over any number of crashes, a content was loaded or informed by the
  subtask's agent for a request about that subtask of that task.
* `results_sourced`: as long as the coordinator does not crash, it was informed for the
  request the results map itself gives rise to: payloads and results fit together.
-/
namespace MasResearch.L3

open MasResearch.L1 MasResearch.L2 Relation TaskState

/-! ## Contents and finalizations -/

/-- What is known of the contents in a results map. -/
def Contents (Q : TaskState → List Event → String → Content → Prop) (s : TaskState) (h : List Event) : Prop :=
  ∀ sid content, s.results.get? sid = some (some content) → Q s h sid content

/-- The same of every state the history finalizes. -/
def Finals (P : TaskState → List Event → Prop) (h : List Event) : Prop :=
  ∀ cause status s, Event.finalizing cause status s ∈ h → P s h

/-- A content is known when it gets into the map, by reloading or by a reply, and stays known. -/
structure ContentInv (A : Assumptions) (J : TaskState → List Event → Prop)
    (Q : TaskState → List Event → String → Content → Prop) : Prop where
  mono : ∀ {s s' h h' sid content}, Q s h sid content → s'.task = s.task → Extends s.results s'.results →
    h <:+ h' → Q s' h' sid content
  resumed : ∀ {task results now sid content}, A.resumes task results → results.get? sid = some content →
    Q (TaskState.resumed task results now) [] sid content
  informed : ∀ {s h m sid}, J s h → s.Wf → A.reply s h m → m.subtaskId = some sid → sid ∈ s.pending →
    m.performative ≠ .refuse → Q s h sid m.content

section

variable {A : Assumptions} {env : Env} {cfg : Config} {now : ℚ} {J : TaskState → List Event → Prop}
  {K : List Event → Prop} {Q : TaskState → List Event → String → Content → Prop} {s s' : TaskState}
  {h h' : List Event}

theorem Contents.later (hQ : ContentInv A J Q) (hc : Contents Q s h) (hh : h <:+ h') : Contents Q s h' :=
  fun sid content hk => hQ.mono (hc sid content hk) rfl (Extends.refl _) hh

/-- No content was added. -/
theorem Contents.quiet (hQ : ContentInv A J Q) (hc : Contents Q s h) (ht : s'.task = s.task)
    (hx : Extends s.results s'.results) (hh : h <:+ h') (hold : ∀ sid content,
      s'.results.get? sid = some (some content) → s.results.get? sid = some (some content)) : Contents Q s' h' :=
  fun sid content hk => hQ.mono (hc sid content (hold sid content hk)) ht hx hh

theorem Finals.cons (hQ : ContentInv A J Q) (hf : Finals (Contents Q) h) {e : Event}
    (he : ∀ cause status s, e = .finalizing cause status s → Contents Q s h) : Finals (Contents Q) (e :: h) := by
  intro cause status s hm
  rcases List.mem_cons.mp hm with rfl | hm
  · exact (he _ _ _ rfl).later hQ (List.suffix_cons _ _)
  · exact (hf _ _ _ hm).later hQ (List.suffix_cons _ _)

/-- A reply adds the content it carries at most. -/
theorem Contents.routed (hQ : ContentInv A J Q) (hc : Contents Q s h) (hJ : J s h) (hwf : s.Wf) {m : Message}
    {jobs : List Job} (hm : A.reply s h m) (hr : Routed env now m s jobs s') : Contents Q s' (.routed m :: h) := by
  have hh : h <:+ .routed m :: h := List.suffix_cons _ _
  have hx := extends_routed hwf hr
  have ht := hr.frame.1
  intro k content hk
  cases hr with
  | ignored => exact hQ.mono (hc k content hk) ht hx hh
  | @refused sid =>
    exact hQ.mono (hc k content (content_retryOrFail (s := s.countMessage.dropDeadline sid) hk)) ht hx hh
  | @informed sid sub hsid hp hperf =>
    simp only [inform, dropDeadline, countMessage, Dict.get?_set] at hk
    split at hk
    · rename_i he
      cases hk
      exact hQ.mono (hQ.informed hJ hwf hm (he ▸ hsid) (he ▸ hp) hperf) ht hx hh
    · exact hQ.mono (hc k content hk) ht hx hh

/-- **The rule for contents.** -/
theorem TaskInv.contents (hJ : TaskInv A env cfg J K) (hQ : ContentInv A J Q) :
    TaskInv A env cfg (fun s h => J s h ∧ Contents Q s h ∧ Finals (Contents Q) h)
      fun h => K h ∧ Finals (Contents Q) h where
  submitted task now hs := ⟨hJ.submitted task now hs, fun _ _ hk => (by cases hk), fun _ _ _ hm => (by cases hm)⟩
  resumed task results now hs := by
    refine ⟨hJ.resumed task results now hs, fun sid content hk => hQ.resumed hs ?_, fun _ _ _ hm => (by cases hm)⟩
    simp only [TaskState.resumed, Dict.get?_mapVals, loadedResults, Dict.get?_filterKeys] at hk
    split at hk
    · simpa using hk
    · cases hk
  move := by
    intro now s o c hI hwf hm ht
    have hx := extends_move hwf hm
    refine ⟨hJ.move hI.1 hwf hm ht, ?_, ?_⟩
    · have hh : o.history <:+ c.outside.history := by
        rcases slotStep_history env cfg now (.move hm) with he | ⟨e, -, -, he⟩ <;> dsimp only at he <;> rw [he]
        exact List.suffix_cons _ _
      exact hI.2.1.quiet hQ hm.frame.1 hx hh fun _ _ hk => content_move hm hk
    · cases hm with
      | ready => exact hI.2.2.cons hQ (by simp)
      | skip => exact hI.2.2
      | expire => exact hI.2.2
      | again => exact hI.2.2.cons hQ (by simp)
  routed hI hwf hm hr := ⟨hJ.routed hI.1 hwf hm hr, hI.2.1.routed hQ hI.1 hwf hm hr, hI.2.2.cons hQ (by simp)⟩
  finalizing cause hI hwf hf := ⟨hJ.finalizing cause hI.1 hwf hf, hI.2.1.later hQ (List.suffix_cons _ _),
    hI.2.2.cons hQ (by rintro _ _ _ ⟨⟩; exact hI.2.1)⟩
  recorded hI hq := ⟨hJ.recorded hI.1 hq, hI.2.1.later hQ (List.suffix_cons _ _),
    hI.2.2.cons hQ (by rintro _ _ _ rfl; cases hq)⟩
  history hI := ⟨hJ.history hI.1, hI.2.2⟩
  empty := ⟨hJ.empty, fun _ _ _ hm => (by cases hm)⟩
  quiet hH hq := ⟨hJ.quiet hH.1 hq, hH.2.cons hQ (by rintro _ _ _ rfl; cases hq)⟩

end

/-! ## Contents answer requests -/

section

variable {informs : Informs} {inputs : Inputs} {env : Env} {cfg : Config}

/-- The content was loaded, or informed by the agent of that subtask when asked about it. -/
def Correlates (informs : Informs) (inputs : Inputs) (s : TaskState) (_ : List Event) (sid : String)
    (content : Content) : Prop :=
  inputs.loads s.task sid content ∨ ∃ who request, informs who request content ∧ RequestFor inputs who request ∧
    request.taskId = s.task.id ∧ request.subtaskId = some sid

theorem contentInv_correlates (informs : Informs) (inputs : Inputs) :
    ContentInv (.correlated informs inputs) (fun _ _ => True) (Correlates informs inputs) where
  mono h ht _ _ := by unfold Correlates; rw [ht]; exact h
  resumed hs hk := .inl (hs.2 _ _ hk)
  informed := by
    rintro s h m sid - - ⟨who, request, hfor, htid, hrep⟩ hsid - hperf
    exact .inr ⟨who, request, hrep.informed hperf, hfor, htid, hrep.ids.2.symm.trans hsid⟩

/-- A request for a subtask of some task with this id goes to the agent of that subtask. -/
theorem RequestFor.of_mem {who : AgentName} {request : Message} (h : RequestFor inputs who request) {task : Task}
    (ht : request.taskId = task.id) {sub : Subtask} (hs : sub ∈ (buildPlan task).subtasks)
    (hsid : request.subtaskId = some sub.id) :
    who = sub.agent ∧ ∃ task' results, inputs.starts task' ∧ task'.id = task.id ∧
      sub.operation ∈ eligibleOperations task' ∧ request.content = buildPayload sub task' results := by
  obtain ⟨task', sub', results, hstart, hs', rfl, htid, hsid', hc⟩ := h
  obtain ⟨op, -, rfl⟩ := mem_buildPlan.mp hs
  obtain ⟨op', hop', rfl⟩ := mem_buildPlan.mp hs'
  have hid : task'.id = task.id := htid.symm.trans ht
  rw [hsid, Option.some.injEq] at hsid'
  have he : subtaskIdFor task.id op = subtaskIdFor task.id op' := by rw [← hid]; rw [← hid] at hsid'; exact hsid'
  obtain rfl := subtaskIdFor_inj he
  exact ⟨rfl, task', results, hstart, hid, hop', hc⟩

/-- Every content of the plan's subtasks was loaded, or informed by the subtask's agent for a
request about the subtask, whichever incarnation of the coordinator made it. -/
def Traced (informs : Informs) (inputs : Inputs) (s : TaskState) (_ : List Event) : Prop :=
  ∀ sub ∈ s.plan.subtasks, ∀ content, s.results.get? sub.id = some (some content) →
    inputs.loads s.task sub.id content ∨ ∃ request task results, informs sub.agent request content ∧
      request.taskId = s.task.id ∧ request.subtaskId = some sub.id ∧ inputs.starts task ∧ task.id = s.task.id ∧
      sub.operation ∈ eligibleOperations task ∧ request.content = buildPayload sub task results

theorem traced_of_correlates {s : TaskState} {h : List Event} (hwf : s.Wf)
    (hc : Contents (Correlates informs inputs) s h) : Traced informs inputs s h := by
  intro sub hs content hk
  rw [hwf.plan_eq] at hs
  rcases hc sub.id content hk with hl | ⟨who, request, hinf, hfor, htid, hsid⟩
  · exact .inl hl
  · obtain ⟨rfl, task, results, hstart, hid, hop, hpay⟩ := hfor.of_mem htid hs hsid
    exact .inr ⟨request, task, results, hinf, htid, hsid, hstart, hid, hop, hpay⟩

theorem Correlated.traced {s : System} (h : Correlated informs inputs env cfg s) (tid : String) :
    (∀ st, s.coordinator.tasks.get? tid = some st →
      Traced informs inputs st (s.coordinator.outside tid).history) ∧
    Finals (Traced informs inputs) (s.coordinator.outside tid).history := by
  have hI := (taskInv_trivial (.correlated informs inputs) env cfg).contents (contentInv_correlates informs inputs)
  have hc := h.reachable
  obtain ⟨-, task, habout⟩ := (taskInv_chronicle (.correlated informs inputs) env cfg).histories hc tid
  refine ⟨fun st hst => ?_, fun cause status st hm => ?_⟩
  · exact traced_of_correlates (keyed_of_reachable hc tid st hst).1 (hI.registered hc hst).2.1
  · exact traced_of_correlates (habout _ hm).2.1 ((hI.histories hc tid).2 cause status st hm)

/-- **Contents come from their subtask's agent**, over any number of crashes, in any order of
deliveries, in every registered state and every finalization; and the coordinator is always in a
run of its own, whose replies answer requests for the subtasks they name. -/
theorem results_correlated {s : System} (hr : (system informs inputs env cfg).Reachable s) :
    (runs (.correlated informs inputs) env cfg).Reachable s.coordinator ∧ ∀ tid,
      (∀ st, s.coordinator.tasks.get? tid = some st →
        Traced informs inputs st (s.coordinator.outside tid).history) ∧
      Finals (Traced informs inputs) (s.coordinator.outside tid).history :=
  have h := (correlated_inductive informs inputs env cfg).reachable s hr
  ⟨h.reachable, h.traced⟩

theorem transcribed_faultless :
    ((lectureOver Env.faultless []).coordinator.outside "t1").history.any isTranscribed = true := by decide +kernel

theorem results_correlated_lecture : ∃ cause status s,
    Event.finalizing cause status s ∈ ((lectureOver Env.faultless []).coordinator.outside "t1").history ∧
    (s.results.content? "st-t1-F1").isSome = true ∧
    Traced (fun _ _ content => content = []) {} s
      ((lectureOver Env.faultless []).coordinator.outside "t1").history := by
  obtain ⟨cause, status, s, hm, hc⟩ := exists_transcribed transcribed_faultless
  exact ⟨cause, status, s, hm, hc, ((results_correlated ⟨_, _, start_idle,
    run_lecture played_faultless trivial rfl⟩).2 "t1").2 cause status s hm⟩

/-! ## Payloads and results fit together -/

/-- The content was loaded, or informed for the request that `s.results` gives rise to. -/
def Sourced (informs : Informs) (inputs : Inputs) (s : TaskState) (h : List Event) (sid : String)
    (content : Content) : Prop :=
  inputs.loads s.task sid content ∨ ∃ channel sub results request t, Event.published channel sub results request t ∈ h ∧
    sub.id = sid ∧ Extends results s.results ∧ informs sub.agent request content

theorem contentInv_sourced (informs : Informs) (inputs : Inputs) :
    ContentInv (.replies informs inputs) JoinInv (Sourced informs inputs) where
  mono h ht hx hh := by
    rcases h with h | ⟨channel, sub, results, request, t, hm, hid, hr, hinf⟩
    · exact .inl (by rw [ht]; exact h)
    · exact .inr ⟨channel, sub, results, request, t, hh.subset hm, hid, hr.trans hx, hinf⟩
  resumed hs hk := .inl (hs.2 _ _ hk)
  informed := by
    rintro s h m sid hJ - ⟨channel, sub, results, request, t, hm, hrep⟩ hsid - hperf
    have hreq := (hJ.requested _ _ _ _ _ hm).1
    rw [← hrep.ids.2, hsid, Option.some.injEq] at hreq
    exact .inr ⟨channel, sub, results, request, t, hm, hreq.symm, hJ.chronicle.below _ hm _ rfl,
      hrep.informed hperf⟩

/-- Every content of the plan's subtasks was loaded, or informed by the subtask's agent for the
request built from the very results of the map, which meet the subtask's join rule. -/
def Fits (informs : Informs) (inputs : Inputs) (s : TaskState) (h : List Event) : Prop :=
  ∀ sub ∈ s.plan.subtasks, ∀ content, s.results.get? sub.id = some (some content) →
    inputs.loads s.task sub.id content ∨ DepsResolved sub s.results ∧ JoinMet sub s.results ∧
      ∃ channel results request t, Event.published channel sub results request t ∈ h ∧
        request.taskId = s.task.id ∧ request.subtaskId = some sub.id ∧
        request.content = buildPayload sub s.task s.results ∧ informs sub.agent request content

theorem fits_of_sourced {s : TaskState} {h : List Event} (hwf : s.Wf) (hmet : Met h)
    (habout : ∀ e ∈ h, EventOf s.task e) (hc : Contents (Sourced informs inputs) s h) : Fits informs inputs s h := by
  intro sub hs content hk
  rw [hwf.plan_eq] at hs
  rcases hc sub.id content hk with hl | ⟨channel, sub', results, request, t, hm, hid, hx, hinf⟩
  · exact .inl hl
  · obtain ⟨hs', -, htid, hsid, hpay, hin⟩ := habout _ hm
    obtain rfl := subtask_ext hs' hs hid
    obtain ⟨hd, hj⟩ := hmet _ _ _ _ _ hm
    have hag := hx.agreeOn hd
    refine .inr ⟨(depsResolved_congr hag).mp hd, (joinMet_congr hag).mp hj, channel, results, request, t, hm, htid,
      hsid, ?_, hinf⟩
    rw [hpay, buildPayload_congr hs hin (inPlan_of_wf hwf) hag]

theorem Attached.fits {s : System} (h : Attached informs inputs env cfg s) (tid : String) :
    (∀ st, s.coordinator.tasks.get? tid = some st →
      Fits informs inputs st (s.coordinator.outside tid).history) ∧
    Finals (Fits informs inputs) (s.coordinator.outside tid).history := by
  have hc := h.reachable
  have hown := own_replies informs inputs
  have hI := (taskInv_joins hown env cfg).contents (contentInv_sourced informs inputs)
  obtain ⟨-, task, habout⟩ := (taskInv_chronicle (.replies informs inputs) env cfg).histories hc tid
  obtain ⟨hmet, hfinals⟩ := hI.histories hc tid
  refine ⟨fun st hst => ?_, fun cause status st hm => ?_⟩
  · obtain ⟨hJ, hcont, -⟩ := hI.registered hc hst
    exact fits_of_sourced hJ.exact.toWf hmet hJ.chronicle.about hcont
  · obtain ⟨rfl, hwf, -⟩ := habout _ hm
    exact fits_of_sourced hwf hmet habout (hfinals cause status st hm)

/-- **Payloads and results fit together.** In every run of the system in which the coordinator
does not crash, whatever is delivered when, in every registered state and every finalization. -/
theorem results_sourced {s₀ s : System} {ls : List Label} (h0 : s₀.Start)
    (hr : (system informs inputs env cfg).Run s₀ ls s) (hl : Label.crash ∉ ls) (tid : String) :
    (∀ st, s.coordinator.tasks.get? tid = some st →
      Fits informs inputs st (s.coordinator.outside tid).history) ∧
    Finals (Fits informs inputs) (s.coordinator.outside tid).history :=
  (Attached.run hr hl (attached_start h0)).fits tid

theorem results_sourced_lecture : ∃ cause status s,
    Event.finalizing cause status s ∈ ((lectureOver Env.faultless []).coordinator.outside "t1").history ∧
    (s.results.content? "st-t1-F1").isSome = true ∧
    Fits (fun _ _ content => content = []) {} s ((lectureOver Env.faultless []).coordinator.outside "t1").history := by
  obtain ⟨cause, status, s, hm, hc⟩ := exists_transcribed transcribed_faultless
  exact ⟨cause, status, s, hm, hc, (results_sourced start_idle
    (run_lecture played_faultless trivial rfl) noCrash_lecture "t1").2 cause status s hm⟩

end

end MasResearch.L3
