import MasResearch.L3Runs.Histories
import MasResearch.L3Runs.Timers

/-!
# Requests respect the join rules

Requests leave through the readiness loop, which tests the dependencies, and
through the back-off timer, which does not. `JoinInv.linked` carries the test over:
a pending subtask that counts as published has a request in the history, the
results it was tested on are still there (`Chronicle.below`), so it passes again.

* `requests_meet_join`: in runs started by `submit` and fed with replies to the
  coordinator's own requests, every request is made with all dependencies
  resolved and the join rule met; a subtask whose resolved dependencies break the
  join rule is never requested and ends with the result `None`.
-/
namespace MasResearch.L3

open MasResearch.L1 MasResearch.L2 Relation TaskState

/-- A request for the subtask was made. -/
def Asked (h : List Event) (sid : String) : Prop :=
  ∃ channel sub results request t, Event.published channel sub results request t ∈ h ∧ sub.id = sid

/-- Every request was made with the dependencies resolved and the join rule met. -/
def Met (h : List Event) : Prop := ∀ channel sub results request t,
  Event.published channel sub results request t ∈ h → DepsResolved sub results ∧ JoinMet sub results

/-- At every finalization the subtasks that broke their join rule have the result `None`. -/
def Ended (h : List Event) : Prop := ∀ cause status s, Event.finalizing cause status s ∈ h →
  ∀ sub ∈ s.plan.subtasks, DepsResolved sub s.results → ¬ JoinMet sub s.results →
    s.results.get? sub.id = some none

theorem Asked.cons {h : List Event} {sid : String} (ha : Asked h sid) (e : Event) : Asked (e :: h) sid := by
  obtain ⟨channel, sub, r, req, t, hm, he⟩ := ha
  exact ⟨channel, sub, r, req, t, List.mem_cons_of_mem _ hm, he⟩

structure JoinInv (s : TaskState) (h : List Event) : Prop where
  exact : s.Exact
  chronicle : Chronicle s h
  requested : Requested s h
  met : Met h
  linked : ∀ sid ∈ s.pending, sid ∈ s.published → Asked h sid

/-- A request of the history is for the subtask of that id in the plan. -/
theorem Chronicle.sub_eq {s : TaskState} {h : List Event} (hc : Chronicle s h) {channel : String}
    {sub sub' : Subtask} {r : Results} {request : Message} {t : ℚ}
    (hm : Event.published channel sub' r request t ∈ h) (hs : sub ∈ (buildPlan s.task).subtasks)
    (he : sub'.id = sub.id) : sub' = sub := subtask_ext (hc.about _ hm).1 hs he

/-- What a request was tested on still holds. -/
theorem JoinInv.asked {s : TaskState} {h : List Event} (hI : JoinInv s h) {sub : Subtask}
    (hs : sub ∈ (buildPlan s.task).subtasks) (ha : Asked h sub.id) :
    DepsResolved sub s.results ∧ JoinMet sub s.results := by
  obtain ⟨channel, sub', r, request, t, hm, he⟩ := ha
  obtain rfl := hI.chronicle.sub_eq hm hs he
  obtain ⟨hd, hj⟩ := hI.met _ _ _ _ _ hm
  have hag := (hI.chronicle.below _ hm r rfl).agreeOn hd
  exact ⟨(depsResolved_congr hag).mp hd, (joinMet_congr hag).mp hj⟩

/-- A step that makes no request; it may close subtasks. -/
theorem JoinInv.quiet {s s' : TaskState} {h : List Event} (hI : JoinInv s h) (he : s'.Exact)
    (ht : s'.task = s.task) (hx : Extends s.results s'.results) (hp : s.published ⊆ s'.published)
    (hl : ∀ k ∈ s'.pending, k ∈ s'.published → k ∈ s.pending ∧ k ∈ s.published) : JoinInv s' h where
  exact := he
  chronicle := hI.chronicle.state ht hx
  requested := hI.requested.mono hp
  met := hI.met
  linked k hk hpub := hI.linked k (hl k hk hpub).1 (hl k hk hpub).2

theorem Met.cons {h : List Event} (hm : Met h) {e : Event}
    (he : ∀ channel sub results request t, e ≠ .published channel sub results request t) : Met (e :: h) := by
  intro channel sub r request t hmem
  rcases List.mem_cons.mp hmem with rfl | hmem
  · exact absurd rfl (he _ _ _ _ _)
  · exact hm _ _ _ _ _ hmem

/-- An event that is not a request. -/
theorem JoinInv.cons {s : TaskState} {h : List Event} (hI : JoinInv s h) (e : Event) (hc : Chronicle s (e :: h))
    (hr : ∀ channel sub results request t, e ≠ .published channel sub results request t) :
    JoinInv s (e :: h) where
  exact := hI.exact
  chronicle := hc
  requested := hI.requested.cons hr
  met := hI.met.cons hr
  linked k hk hpub := (hI.linked k hk hpub).cons e

theorem Ended.cons {h : List Event} (hf : Ended h) {e : Event}
    (he : ∀ cause status s, e ≠ .finalizing cause status s) : Ended (e :: h) := by
  intro cause status s hm
  rcases List.mem_cons.mp hm with rfl | hm
  · exact absurd rfl (he _ _ _)
  · exact hf _ _ _ hm

theorem pending_retryOrFail {s : TaskState} {sid reason k : String} {now : ℚ}
    (hk : k ∈ (s.retryOrFail sid reason now).pending) (hp : k ∈ (s.retryOrFail sid reason now).published) :
    k ∈ s.pending ∧ k ∈ s.published := by
  unfold retryOrFail at hk hp
  split at hk
  · simp only [TaskState.fail, Finset.mem_erase] at hk
    rename_i hle
    rw [if_pos hle] at hp
    exact ⟨hk.2, Finset.mem_of_mem_insert_of_ne hp hk.1⟩
  · rename_i hle
    rw [if_neg hle] at hp
    exact ⟨hk, hp⟩

theorem content_retryOrFail {s : TaskState} {sid reason k : String} {now : ℚ} {content : Content}
    (hk : (s.retryOrFail sid reason now).results.get? k = some (some content)) :
    s.results.get? k = some (some content) := by
  unfold retryOrFail at hk
  split at hk
  · simp only [TaskState.fail, Dict.get?_set] at hk
    split at hk
    · cases hk
    · exact hk
  · exact hk

/-- A new request that passes the test. -/
theorem JoinInv.published {s : TaskState} {o : Outside} (hI : JoinInv s o.history) {sub : Subtask}
    (hs : sub ∈ (buildPlan s.task).subtasks) (hd : DepsResolved sub s.results) (hj : JoinMet sub s.results)
    {c : Ctx} (env : Env) (cfg : Config) (now : ℚ) (hc : c.outside = o) (hres : c.state.results = s.results)
    (htask : c.state.task = s.task) (hpend : c.state.pending = s.pending)
    (hpub : c.state.published = s.published) (he : (c.published env cfg now sub).state.Exact) :
    JoinInv (c.published env cfg now sub).state (c.published env cfg now sub).outside.history := by
  subst hc
  have hchron : Chronicle c.state c.outside.history :=
    hI.chronicle.state htask (by rw [hres]; exact Extends.refl _)
  have hreq : Requested c.state c.outside.history := hI.requested.mono (by rw [hpub])
  constructor
  case exact => exact he
  case chronicle =>
    refine hchron.published ?_ (by rw [htask]; exact hs) env cfg now
    rw [htask, hres]; exact inPlan_of_wf hI.exact.toWf
  case requested => exact hreq.published env cfg now sub
  case met =>
    intro channel sub' r request t hm
    rcases List.mem_cons.mp hm with hev | hm
    · cases hev; rw [hres]; exact ⟨hd, hj⟩
    · exact hI.met _ _ _ _ _ hm
  case linked =>
    intro k hk hp
    rcases Finset.mem_insert.mp hp with rfl | hp
    · exact ⟨_, sub, _, _, _, List.mem_cons_self, rfl⟩
    · exact (hI.linked k (hpend ▸ hk) (hpub ▸ hp)).cons _

theorem taskInv_joins {A : Assumptions} (hA : A.Own) (env : Env) (cfg : Config) :
    TaskInv A env cfg JoinInv Met where
  submitted task now _ :=
    { exact := exact_submitted task now
      chronicle := (taskInv_chronicle .any env cfg).submitted task now trivial
      requested := fun _ _ _ _ _ hm => by cases hm
      met := fun _ _ _ _ _ hm => by cases hm
      linked := fun sid _ hp => absurd hp (Finset.notMem_empty sid) }
  resumed task results now _ :=
    { exact := exact_resumed task results now
      chronicle := (taskInv_chronicle .any env cfg).resumed task results now trivial
      requested := fun _ _ _ _ _ hm => by cases hm
      met := fun _ _ _ _ _ hm => by cases hm
      linked := fun sid hp hpub => by
        simp only [resumed, Finset.mem_filter, List.mem_toFinset] at hp hpub
        exact absurd hpub hp.2 }
  move := by
    intro now s o c hI hwf hm _
    have hex := Exact.move (c := ⟨s, o⟩) hI.exact hm
    cases hm with
    | @ready sub hs _ _ hd hj =>
      rw [hwf.plan_eq] at hs
      exact hI.published hs hd hj (c := ⟨s, o⟩) env cfg now rfl rfl rfl rfl rfl hex
    | @skip sub reason hs _ hpend =>
      refine hI.quiet hex rfl (extends_set (hwf.disjoint _ hpend) none) (Finset.subset_insert _ _) ?_
      intro k hk hp
      simp only [Ctx.update, TaskState.fail, Finset.mem_erase] at hk
      exact ⟨hk.2, Finset.mem_of_mem_insert_of_ne hp hk.1⟩
    | @expire sid d hd hlt =>
      have hm : Move env cfg now ⟨s, o⟩ _ := .expire hd hlt
      exact hI.quiet hex hm.frame.1 (extends_move hwf hm)
        (published_retryOrFail (s.dropDeadline sid) _ _ _)
        fun k hk hp => pending_retryOrFail (s := s.dropDeadline sid) hk hp
    | @again sid due sub hr _ hs =>
      -- the timer belongs to a published subtask, whose request passed the test
      obtain ⟨hsub, rfl⟩ := Plan.mem_of_get? hs
      have hsub : sub ∈ s.plan.subtasks := hsub
      rw [hwf.plan_eq] at hsub
      have hmem := Dict.mem_of_get? hr
      have hp := hwf.timers _ (.inr hmem)
      have hpub : sub.id ∈ s.published := by
        by_contra hn
        exact (hI.exact.idle _ hp hn).2 hmem
      obtain ⟨hd, hj⟩ := hI.asked hsub (hI.linked _ hp hpub)
      exact hI.published hsub hd hj (c := ⟨s.dropRetry sub.id, o⟩) env cfg now rfl rfl rfl rfl rfl hex
  routed := by
    intro now s h m jobs s' hI hwf hans hr
    have hex := ((taskInv_exact hA env cfg).routed ⟨hI.exact, hI.requested⟩ hwf hans hr).1
    have hchron := (taskInv_chronicle .any env cfg).routed hI.chronicle hwf trivial hr
    have ht := hr.frame.1
    have hx := extends_routed hwf hr
    have hps := Routed.published_subset hr
    have hq : JoinInv s' h := by
      cases hr with
      | ignored => exact hI
      | @refused sid =>
        exact hI.quiet hex ht hx hps
          fun k hk hp => pending_retryOrFail (s := s.countMessage.dropDeadline sid) hk hp
      | informed => exact hI.quiet hex ht hx hps fun k hk hp => ⟨(Finset.mem_erase.mp hk).2, hp⟩
    exact hq.cons _ hchron (by simp)
  finalizing cause hI hwf hf :=
    hI.cons _ ((taskInv_chronicle .any env cfg).finalizing cause hI.chronicle hwf hf) (by simp)
  recorded hI hq := hI.cons _ ((taskInv_chronicle .any env cfg).recorded hI.chronicle hq)
    (by rintro _ _ _ _ _ rfl; cases hq)
  history hI := hI.met
  empty _ _ _ _ _ hm := by cases hm
  quiet hm hq := hm.cons (by rintro _ _ _ _ _ rfl; cases hq)

/-! ## Subtasks that break their join rule -/

/-- Only replies to own requests, only tasks started by `submit`. -/
def Assumptions.submitted : Assumptions := { Assumptions.ownReplies with resumes := fun _ _ => False }

theorem own_submitted : Assumptions.submitted.Own := fun _ _ _ h => h

/-- Every content came in answer to a request. -/
def Informed (s : TaskState) (h : List Event) : Prop :=
  ∀ sid content, s.results.get? sid = some (some content) → Asked h sid

theorem Informed.cons {s : TaskState} {h : List Event} (hi : Informed s h) (e : Event) : Informed s (e :: h) :=
  fun sid content hk => (hi sid content hk).cons e

/-- A subtask that breaks its join rule has no content: only a reply to a request
would have given it one. -/
theorem JoinInv.broken {s : TaskState} {h : List Event} (hI : JoinInv s h) (hi : Informed s h) {sub : Subtask}
    (hs : sub ∈ (buildPlan s.task).subtasks) (hj : ¬ JoinMet sub s.results) :
    ¬ Asked h sub.id ∧ (sub.id ∈ s.results → s.results.get? sub.id = some none) := by
  have hnot : ¬ Asked h sub.id := fun ha => hj (hI.asked hs ha).2
  refine ⟨hnot, fun hres => ?_⟩
  obtain ⟨v, hv⟩ := Dict.exists_get? hres
  cases v with
  | none => exact hv
  | some content => exact absurd (hi _ _ hv) hnot

/-- Moves give no subtask a content. -/
theorem content_move {env : Env} {cfg : Config} {now : ℚ} {c c' : Ctx} (hm : Move env cfg now c c') {k : String}
    {content : Content} (hk : c'.state.results.get? k = some (some content)) :
    c.state.results.get? k = some (some content) := by
  cases hm with
  | ready => exact hk
  | again => exact hk
  | @expire sid => exact content_retryOrFail (s := c.state.dropDeadline sid) hk
  | skip =>
    simp only [Ctx.update, TaskState.fail, Dict.get?_set] at hk
    split at hk
    · cases hk
    · exact hk

theorem taskInv_ended (env : Env) (cfg : Config) :
    TaskInv .submitted env cfg (fun s h => JoinInv s h ∧ Informed s h ∧ Ended h) Ended where
  submitted task now hs := ⟨(taskInv_joins own_submitted env cfg).submitted task now hs,
    fun _ _ hk => (by cases hk), fun _ _ _ hm => (by cases hm)⟩
  resumed _ _ _ h := h.elim
  move := by
    intro now s o c hI hwf hm ht
    refine ⟨(taskInv_joins own_submitted env cfg).move hI.1 hwf hm ht, fun sid content hk => ?_, ?_⟩
    · have ha := hI.2.1 sid content (content_move hm hk)
      rcases slotStep_history env cfg now (.move hm) with he | ⟨e, -, -, he⟩ <;> dsimp only at he <;> rw [he]
      · exact ha
      · exact ha.cons e
    · cases hm with
      | ready => exact hI.2.2.cons (by simp)
      | skip => exact hI.2.2
      | expire => exact hI.2.2
      | again => exact hI.2.2.cons (by simp)
  routed := by
    intro now s h m jobs s' hI hwf hans hr
    refine ⟨(taskInv_joins own_submitted env cfg).routed hI.1 hwf hans hr, fun k content hk => ?_,
      hI.2.2.cons (by simp)⟩
    refine Asked.cons ?_ _
    cases hr with
    | ignored => exact hI.2.1 k content hk
    | @refused sid => exact hI.2.1 k content (content_retryOrFail (s := s.countMessage.dropDeadline sid) hk)
    | @informed sid sub hsid =>
      simp only [inform, dropDeadline, countMessage, Dict.get?_set] at hk
      split at hk
      · rename_i he
        obtain ⟨channel, sub', r, request, t, hpub, -, hid⟩ := hans
        rw [(hI.1.requested _ _ _ _ _ hpub).1, hsid] at hid
        exact ⟨channel, sub', r, request, t, hpub, by rw [he]; exact (Option.some.inj hid).symm⟩
      · exact hI.2.1 k content hk
  finalizing := by
    intro now s h cause hI hwf hf
    refine ⟨(taskInv_joins own_submitted env cfg).finalizing cause hI.1 hwf hf, hI.2.1.cons _, ?_⟩
    intro cause' status' s' hm
    rcases List.mem_cons.mp hm with he | hm
    case inr => exact hI.2.2 _ _ _ hm
    cases he
    intro sub hs hd hj
    have hsub := hs
    rw [hwf.plan_eq] at hsub
    obtain ⟨hnot, hnone⟩ := hI.1.broken hI.2.1 hsub hj
    -- a pending one would have been skipped before the finalization
    refine hnone (((hwf.cover sub.id).mp (Plan.mem_ids.mpr ⟨sub, hsub, rfl⟩)).resolve_left fun hp => ?_)
    cases cause with
    | resolved =>
      have hempty : s.pending = ∅ := hf
      rw [hempty] at hp
      exact absurd hp (Finset.notMem_empty _)
    | deadline =>
      exact hf.1.ready sub hs hp (fun hpub => hnot (hI.1.linked _ hp hpub)) hd
  recorded hI hq := ⟨(taskInv_joins own_submitted env cfg).recorded hI.1 hq, hI.2.1.cons _,
    hI.2.2.cons (by rintro _ _ _ rfl; cases hq)⟩
  history hI := hI.2.2
  empty _ _ _ hm := by cases hm
  quiet hH hq := hH.cons (by rintro _ _ _ rfl; cases hq)

/-- No request of a history passed a test that a finalization's results fail. -/
theorem not_asked_of_ended {h : List Event} (ho : Ordered h) (hm : Met h) {task : Task}
    (ha : ∀ e ∈ h, EventOf task e) {cause : Cause} {status : TaskStatus} {s : TaskState}
    (hf : Event.finalizing cause status s ∈ h) {sub : Subtask} (hs : sub ∈ s.plan.subtasks)
    (hd : DepsResolved sub s.results) (hj : ¬ JoinMet sub s.results) : ¬ Asked h sub.id := by
  rintro ⟨channel, sub', r, request, t, hp, he⟩
  obtain ⟨rfl, hwf, -⟩ := ha _ hf
  rw [hwf.plan_eq] at hs
  obtain rfl := subtask_ext (ha _ hp).1 hs he
  obtain ⟨hd', hj'⟩ := hm _ _ _ _ _ hp
  rcases ho.comparable hp hf rfl rfl with hx | hx
  · exact hj ((joinMet_congr (hx.agreeOn hd')).mp hj')
  · exact hj ((joinMet_congr (hx.agreeOn hd)).mpr hj')

/-- **Requests respect the join rules.** -/
theorem requests_meet_join (env : Env) (cfg : Config) {c : Coordinator}
    (hr : (runs .submitted env cfg).Reachable c) (tid : String) :
    (∀ channel sub results request t,
      Event.published channel sub results request t ∈ (c.outside tid).history →
        DepsResolved sub results ∧ JoinMet sub results) ∧
    (∀ s, c.tasks.get? tid = some s → ∀ sub ∈ s.plan.subtasks, DepsResolved sub s.results →
      ¬ JoinMet sub s.results → ¬ Asked (c.outside tid).history sub.id ∧
        (sub.id ∈ s.results → s.results.get? sub.id = some none)) ∧
    (∀ cause status s, Event.finalizing cause status s ∈ (c.outside tid).history →
      ∀ sub ∈ s.plan.subtasks, DepsResolved sub s.results → ¬ JoinMet sub s.results →
        ¬ Asked (c.outside tid).history sub.id ∧ s.results.get? sub.id = some none) := by
  have hmet := (taskInv_joins own_submitted env cfg).histories hr tid
  have hended := (taskInv_ended env cfg).histories hr tid
  obtain ⟨hord, task, habout⟩ := (taskInv_chronicle .submitted env cfg).histories hr tid
  refine ⟨hmet, ?_, ?_⟩
  · intro s hs sub hsub _ hj
    have hI := (taskInv_ended env cfg).registered hr hs
    rw [hI.1.exact.plan_eq] at hsub
    exact hI.1.broken hI.2.1 hsub hj
  · intro cause status s hf sub hsub hd hj
    exact ⟨not_asked_of_ended hord hmet habout hf hsub hd hj, hended _ _ _ hf sub hsub hd hj⟩

theorem requests_meet_join_opened : ∃ channel sub results request t,
    Event.published channel sub results request t ∈ (opened.outside "t1").history ∧ sub.id = "st-t1-F3" ∧
      "st-t1-F1" ∈ results ∧ JoinMet sub results := by
  have hr : (runs .submitted Env.faultless {}).Reachable opened := LTS.reachable_foldl initial_idle
    ((sound_ownTests (fun _ _ _ h => h) fun _ _ => trivial).admits_submit trivial plays_opening)
  obtain ⟨channel, sub, results, request, t, hm, hsid, hdep⟩ :=
    exists_asksSummary (show (opened.outside "t1").history.any asksSummary = true by decide +kernel)
  obtain ⟨hd, hj⟩ := (requests_meet_join Env.faultless {} hr "t1").1 _ _ _ _ _ hm
  exact ⟨channel, sub, results, request, t, hm, hsid, hd _ (by rw [hdep]; exact List.mem_singleton_self _), hj⟩

end MasResearch.L3
