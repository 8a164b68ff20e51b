import Mathlib.Algebra.Order.BigOperators.Group.Finset
import MasResearch.L2Dispatch.Dispatch

/-!
# `_advance` as a sequence of moves

At a clock reading `now` the dispatcher changes a task in four ways (`Move`):
it requests a ready subtask, skips one whose dependencies are resolved against
its join rule, expires a deadline, or requests a subtask again when its back-off
is over. A request that raises is a `Fault`.

* `advance_run`: on a well-formed state `_advance` performs moves and either
  returns in a `Settled` state or raises after one fault. In particular the
  `while changed` loop ends: `potential` drops with every move.
* `Wf.move`, `Exact.move`: the moves keep both invariants.

Every invariant of the dispatcher is proved over the four moves.
-/
namespace MasResearch.L2

open MasResearch.L1 Relation TaskState

/-! ## What the methods do on a plan they find their subtasks in -/

theorem run_planGet {c : Ctx} {sid : String} {sub : Subtask} (h : c.state.plan.get? sid = some sub) :
    (planGet sid).run c = (.ok sub, c) := by
  simp [planGet, Exec.run_bind, h]

theorem run_failSubtask {c : Ctx} {sid : String} {sub : Subtask}
    (h : c.state.plan.get? sid = some sub) (reason : String) (now : ℚ) :
    (failSubtask sid reason now).run c = (.ok (), c.update (·.fail sid reason now)) := by
  have h' : (c.update (·.fail sid reason now)).state.plan.get? sid = some sub := h
  simp [failSubtask, modifyState, Exec.run_bind, run_planGet h']

theorem run_backoffAt {i : Nat} (h : i < retryMax) (c : Ctx) :
    (backoffAt i).run c = (.ok (backoffSeconds.getD i 0), c) := by
  have h' : i < backoffSeconds.length := h
  simp [backoffAt, List.getElem?_eq_getElem h', List.getD_eq_getElem?_getD]

/-- `BACKOFF_SECONDS` is indexed in range: the count was below `RETRY_MAX`. -/
theorem run_scheduleRetryOrFail {c : Ctx} {sid : String} {sub : Subtask}
    (h : c.state.plan.get? sid = some sub) (reason : String) (now : ℚ) :
    (scheduleRetryOrFail sid reason now).run c = (.ok (), c.update (·.retryOrFail sid reason now)) := by
  rw [scheduleRetryOrFail, Exec.run_bind, Exec.run_get]
  dsimp only
  rcases Nat.lt_or_ge (c.state.retries sid) retryMax with hlt | hge
  · have e : (c.state.countRetry sid).retries sid - 1 = c.state.retries sid := by
      rw [TaskState.retries_countRetry, if_pos rfl]; rfl
    have hb := run_backoffAt hlt ⟨c.state.countRetry sid, c.outside⟩
    have hg := run_planGet (c := ⟨(c.state.countRetry sid).scheduleRetry sid reason
      (now + backoffSeconds.getD (c.state.retries sid) 0), c.outside⟩) h
    simp only [if_neg (Nat.not_le.mpr hlt), modifyState, Exec.run_bind, Exec.run_modify, Exec.run_get,
      Ctx.update, e, hb, hg, Exec.run_pure, TaskState.retryOrFail_of_lt hlt]
  · rw [if_pos hge, run_failSubtask h]
    simp only [Ctx.update, TaskState.retryOrFail_of_le hge]

/-- The state after a request for `sub` that did not raise. -/
def Ctx.published (env : Env) (cfg : Config) (now : ℚ) (c : Ctx) (sub : Subtask) : Ctx where
  state := c.state.markPublished sub.id now (cfg.timeoutFor sub.agent)
  outside := c.outside.note (.published (channelForAgent sub.agent.value) sub c.state.results
    (c.request env sub) now)

theorem run_publish (env : Env) (cfg : Config) (now : ℚ) (c : Ctx) (sub : Subtask) :
    (publish env cfg sub now).run c =
      if env.raises c.outside.history (.publish sub.id) then
        (.error .external, c.note (.publishFailed sub.id))
      else (.ok (), c.published env cfg now sub) := by
  simp only [publish, outward, busPublish, modifyState, Exec.run_bind, Exec.run_get, Exec.run_zoom]
  cases env.raises c.outside.history (.publish sub.id) <;> rfl

theorem succeeded_eq_nil {sub : Subtask} {r : Results} :
    succeeded sub r = [] ↔ ∀ dep ∈ sub.dependsOn, ¬ (r.content? dep).isSome := by
  simp [succeeded, List.filter_eq_nil_iff]

theorem succeeded_length_lt {sub : Subtask} {r : Results} :
    (succeeded sub r).length < sub.dependsOn.length ↔
      ¬ ∀ dep ∈ sub.dependsOn, (r.content? dep).isSome := by
  have hle := List.length_filter_le (fun dep => (r.content? dep).isSome) sub.dependsOn
  have heq := List.length_filter_eq_length_iff (p := fun dep => (r.content? dep).isSome)
    (l := sub.dependsOn)
  rw [← heq]
  simp only [succeeded]
  omega

/-- The two tests of the readiness loop fail exactly when the join rule holds. -/
theorem joinMet_iff (sub : Subtask) (r : Results) :
    JoinMet sub r ↔ ¬ (sub.dependsOn ≠ [] ∧ succeeded sub r = []) ∧
      ¬ (sub.join = .all ∧ (succeeded sub r).length < sub.dependsOn.length) := by
  rw [succeeded_eq_nil, succeeded_length_lt]
  unfold JoinMet
  by_cases h0 : sub.dependsOn = []
  · simp [h0]
  · obtain ⟨d, hd⟩ := List.exists_mem_of_ne_nil _ h0
    cases sub.join with
    | any => simp [h0, Option.ne_none_iff_isSome]
    | all =>
      simp only [h0, false_or, true_and, not_not, ne_eq, not_false_eq_true]
      exact ⟨fun h => ⟨fun hn => hn d hd (h d hd), h⟩, fun h => h.2⟩

/-! ## Moves and faults -/

inductive Move (env : Env) (cfg : Config) (now : ℚ) : Ctx → Ctx → Prop
  | ready {c : Ctx} {sub : Subtask} (hs : sub ∈ c.state.plan.subtasks) (hpub : sub.id ∉ c.state.published)
      (hpend : sub.id ∈ c.state.pending) (hdeps : DepsResolved sub c.state.results)
      (hjoin : JoinMet sub c.state.results) : Move env cfg now c (c.published env cfg now sub)
  | skip {c : Ctx} {sub : Subtask} (reason : String) (hs : sub ∈ c.state.plan.subtasks)
      (hpub : sub.id ∉ c.state.published) (hpend : sub.id ∈ c.state.pending)
      (hdeps : DepsResolved sub c.state.results) (hjoin : ¬ JoinMet sub c.state.results) :
      Move env cfg now c (c.update (·.fail sub.id reason now))
  | expire {c : Ctx} {sid : String} {d : ℚ} (hd : c.state.deadlines.get? sid = some d) (hlt : d < now) :
      Move env cfg now c (c.update fun s => (s.dropDeadline sid).retryOrFail sid "timeout" now)
  | again {c : Ctx} {sid : String} {due : ℚ} {sub : Subtask} (hr : c.state.retryAt.get? sid = some due)
      (hle : due ≤ now) (hs : c.state.plan.get? sid = some sub) :
      Move env cfg now c ((c.update (·.dropRetry sid)).published env cfg now sub)

/-- A request that raised, in the readiness loop or after `del retry_at[subtask_id]`. -/
inductive Fault (env : Env) (now : ℚ) : PyError → Ctx → Ctx → Prop
  | ready {c : Ctx} {sub : Subtask} (hs : sub ∈ c.state.plan.subtasks) (hpub : sub.id ∉ c.state.published)
      (hpend : sub.id ∈ c.state.pending) (hdeps : DepsResolved sub c.state.results)
      (hjoin : JoinMet sub c.state.results)
      (hraise : env.raises c.outside.history (.publish sub.id) = true) :
      Fault env now .external c (c.note (.publishFailed sub.id))
  | again {c : Ctx} {sid : String} {due : ℚ} {sub : Subtask} (hr : c.state.retryAt.get? sid = some due)
      (hle : due ≤ now) (hs : c.state.plan.get? sid = some sub)
      (hraise : env.raises c.outside.history (.publish sub.id) = true) :
      Fault env now .external c ((c.update (·.dropRetry sid)).note (.publishFailed sub.id))

/-- Nothing left to do at `now`. -/
structure Settled (now : ℚ) (s : TaskState) : Prop where
  ready : ∀ sub ∈ s.plan.subtasks, sub.id ∈ s.pending → sub.id ∉ s.published → ¬ DepsResolved sub s.results
  expired : ∀ sid d, s.deadlines.get? sid = some d → now ≤ d
  due : ∀ sid t, s.retryAt.get? sid = some t → now < t

section

variable {env : Env} {cfg : Config} {now : ℚ}

theorem Wf.move {c c' : Ctx} (h : c.state.Wf) (hm : Move env cfg now c c') : c'.state.Wf := by
  cases hm with
  | ready _ _ hpend => exact h.markPublished hpend _ _
  | skip _ _ _ hpend => exact h.fail hpend _ _
  | expire hd _ => exact h.retried (h.timers _ (.inl (Dict.mem_of_get? hd))) _ _
  | again hr _ hs =>
    have hp := h.timers _ (.inr (Dict.mem_of_get? hr))
    simp only [Ctx.published, Ctx.update, (Plan.mem_of_get? hs).2]
    exact h.republished hp _ _

theorem Exact.move {c c' : Ctx} (h : c.state.Exact) (hm : Move env cfg now c c') : c'.state.Exact := by
  cases hm with
  | ready _ hpub hpend => exact h.markPublished hpend hpub _ _
  | skip _ _ _ hpend => exact h.fail hpend _ _
  | expire hd _ =>
    have hmem := Dict.mem_of_get? hd
    have hp := h.timers _ (.inl hmem)
    refine h.retried hp ?_ _ _
    by_contra hpub
    exact (h.idle _ hp hpub).1 hmem
  | again hr _ hs =>
    have hp := h.timers _ (.inr (Dict.mem_of_get? hr))
    simp only [Ctx.published, Ctx.update, (Plan.mem_of_get? hs).2]
    exact h.republished hp _ _

/-- The moves keep the task, the plan and the start time. -/
theorem Move.frame {c c' : Ctx} (hm : Move env cfg now c c') :
    c'.state.task = c.state.task ∧ c'.state.plan = c.state.plan ∧
      c'.state.startedAt = c.state.startedAt ∧ c'.outside.row = c.outside.row := by
  cases hm with
  | ready => exact ⟨rfl, rfl, rfl, rfl⟩
  | skip => exact ⟨rfl, rfl, rfl, rfl⟩
  | again => exact ⟨rfl, rfl, rfl, rfl⟩
  | expire =>
    refine ⟨?_, ?_, ?_, rfl⟩ <;> simp only [Ctx.update, retryOrFail] <;> split <;> rfl

end

/-! ## The measure of the `while changed` loop -/

/-- What one id may still cost: its first request, its retries, its timers. -/
def weight (s : TaskState) (sid : String) : Nat :=
  (if sid ∈ s.pending ∧ sid ∉ s.published then 2 else 0) + 3 * (retryMax - s.retries sid) +
    (if sid ∈ s.retryAt then 2 else 0) + (if sid ∈ s.deadlines then 1 else 0)

def potential (c : Ctx) : Nat := ∑ sid ∈ (buildPlan c.state.task).ids, weight c.state sid

theorem weight_le (s : TaskState) (sid : String) : weight s sid ≤ 11 := by
  have : retryMax = 2 := rfl
  unfold weight; split_ifs <;> omega

theorem potential_lt_roundBound {c : Ctx} (h : c.state.Wf) : potential c < roundBound c.state.plan := by
  have h1 : potential c ≤ (buildPlan c.state.task).ids.card * 11 :=
    Finset.sum_le_card_nsmul _ _ _ fun sid _ => weight_le c.state sid
  have h2 : (buildPlan c.state.task).ids.card ≤ (buildPlan c.state.task).subtasks.length := by
    unfold Plan.ids
    simpa using List.toFinset_card_le ((buildPlan c.state.task).subtasks.map Subtask.id)
  rw [h.plan_eq]
  unfold roundBound
  omega

/-- One id gets cheaper and the others stay: the potential drops. -/
theorem potential_lt {c c' : Ctx} (sid : String) (ht : c'.state.task = c.state.task)
    (hmem : sid ∈ (buildPlan c.state.task).ids) (hlt : weight c'.state sid < weight c.state sid)
    (heq : ∀ k, k ≠ sid → weight c'.state k = weight c.state k) : potential c' < potential c := by
  unfold potential
  rw [ht]
  refine Finset.sum_lt_sum (fun k _ => ?_) ⟨sid, hmem, hlt⟩
  by_cases hk : k = sid
  · rw [hk]; exact hlt.le
  · exact (heq k hk).le

/-- What is resolved costs nothing more. -/
theorem potential_resolve {c c' : Ctx} {sid : String} (h : c.state.Wf) (hp : sid ∈ c.state.pending)
    (hr : Resolves c.state sid c'.state) (hopen : sid ∉ c.state.published ∨ sid ∈ c.state.deadlines) :
    potential c' < potential c := by
  refine potential_lt sid hr.task (h.mem_ids hp) ?_ fun k hk => ?_
  · have hzero : weight c'.state sid = 3 * (retryMax - c.state.retries sid) := by
      simp [weight, hr.pending, hr.deadlines, hr.retryAt, hr.retries]
    have hsome : 0 < (if sid ∈ c.state.pending ∧ sid ∉ c.state.published then 2 else 0) +
        (if sid ∈ c.state.deadlines then 1 else 0) := by
      rcases hopen with ho | ho <;> simp [ho, hp]
    rw [hzero, weight]
    omega
  · simp only [weight, hr.pending, hr.published k hk, hr.deadlines, hr.retryAt, hr.retries, ne_eq, hk,
      not_false_eq_true, true_and]

section

variable {env : Env} {cfg : Config} {now : ℚ}

theorem Move.potential_lt {c c' : Ctx} (h : c.state.Wf) (hm : Move env cfg now c c') :
    potential c' < potential c := by
  cases hm with
  | @ready sub _ hpub hpend _ _ =>
    refine MasResearch.L2.potential_lt sub.id rfl (h.mem_ids hpend) ?_ fun k hk => ?_
    · simp only [weight, Ctx.published, markPublished, TaskState.retries, Dict.mem_set]
      grind
    · simp only [weight, Ctx.published, markPublished, TaskState.retries, Dict.mem_set]
      grind
  | @skip sub reason _ hpub hpend _ _ =>
    exact potential_resolve h hpend (resolves_fail c.state sub.id reason now) (.inl hpub)
  | @expire sid d hd _ =>
    have hmem := Dict.mem_of_get? hd
    have hids := h.mem_ids (h.timers _ (.inl hmem))
    rcases Nat.lt_or_ge (c.state.retries sid) retryMax with hlt | hge
    · -- a retry is spent: three units for a back-off of two
      simp only [Ctx.update, retryOrFail_of_lt (show (c.state.dropDeadline sid).retries sid < _ from hlt)]
      have hc := retries_countRetry (c.state.dropDeadline sid) sid
      refine MasResearch.L2.potential_lt sid rfl hids ?_ fun k hk => ?_
      · have := hc sid
        simp only [weight, scheduleRetry, TaskState.retries, countRetry, dropDeadline, Dict.mem_set,
          Dict.mem_erase] at this hlt ⊢
        grind
      · have := hc k
        simp only [weight, scheduleRetry, TaskState.retries, countRetry, dropDeadline, Dict.mem_set,
          Dict.mem_erase] at this ⊢
        grind
    · simp only [Ctx.update, retryOrFail_of_le (show _ ≤ (c.state.dropDeadline sid).retries sid from hge)]
      exact potential_resolve h (h.timers _ (.inl hmem)) (resolves_fail _ sid _ now).of_dropDeadline (.inr hmem)
  | @again sid due sub hr _ hs =>
    have hmem := Dict.mem_of_get? hr
    obtain rfl := (Plan.mem_of_get? hs).2
    refine MasResearch.L2.potential_lt sub.id rfl (h.mem_ids (h.timers _ (.inr hmem))) ?_ fun k hk => ?_
    · simp only [weight, Ctx.published, Ctx.update, dropRetry, markPublished, TaskState.retries, Dict.mem_set,
        Dict.mem_erase]
      grind
    · simp only [weight, Ctx.published, Ctx.update, dropRetry, markPublished, TaskState.retries, Dict.mem_set,
        Dict.mem_erase]
      grind

end

/-! ## `_advance` -/

section

variable {env : Env} {cfg : Config} {now : ℚ}

theorem Wf.get?_sub {s : TaskState} (h : s.Wf) {sub : Subtask} (hs : sub ∈ s.plan.subtasks) :
    s.plan.get? sub.id = some sub := by
  rw [h.plan_eq] at hs ⊢
  exact get?_of_mem hs

/-- The three ways one round of the readiness loop goes. -/
theorem run_advanceSubtask (env : Env) (cfg : Config) (now : ℚ) {c : Ctx} (h : c.state.Wf) {sub : Subtask}
    (hs : sub ∈ c.state.plan.subtasks) :
    (advanceSubtask env cfg now sub).run c =
      if sub.id ∈ c.state.published ∨ sub.id ∉ c.state.pending ∨ ¬ DepsResolved sub c.state.results then
        (.ok false, c)
      else if JoinMet sub c.state.results then
        if env.raises c.outside.history (.publish sub.id) then
          (.error .external, c.note (.publishFailed sub.id))
        else (.ok true, c.published env cfg now sub)
      else
        (.ok true, c.update (·.fail sub.id (if sub.dependsOn ≠ [] ∧ succeeded sub c.state.results = [] then
          "skipped: all upstream failed" else "skipped: upstream failed") now)) := by
  have hg := Wf.get?_sub h hs
  simp only [advanceSubtask, Exec.run_bind, Exec.run_get]
  by_cases h1 : sub.id ∈ c.state.published ∨ sub.id ∉ c.state.pending
  · rw [if_pos h1, if_pos (by tauto)]; rfl
  by_cases h2 : DepsResolved sub c.state.results
  case neg => rw [if_neg h1, if_pos h2, if_pos (by tauto)]; rfl
  have hno : ¬ (sub.id ∈ c.state.published ∨ sub.id ∉ c.state.pending ∨
    ¬ DepsResolved sub c.state.results) := by tauto
  rw [if_neg h1, if_neg (not_not.mpr h2), if_neg hno]
  have hj := joinMet_iff sub c.state.results
  by_cases h3 : sub.dependsOn ≠ [] ∧ succeeded sub c.state.results = []
  · have hjn : ¬ JoinMet sub c.state.results := fun hn => (hj.mp hn).1 h3
    rw [if_neg hjn]
    simp only [if_pos h3, Exec.run_bind, run_failSubtask hg, Exec.run_pure]
  by_cases h4 : sub.join = .all ∧ (succeeded sub c.state.results).length < sub.dependsOn.length
  · have hjn : ¬ JoinMet sub c.state.results := fun hn => (hj.mp hn).2 h4
    rw [if_neg hjn]
    simp only [if_neg h3, if_pos h4, Exec.run_bind, run_failSubtask hg, Exec.run_pure]
  rw [if_pos (hj.mpr ⟨h3, h4⟩)]
  simp only [if_neg h3, if_neg h4, Exec.run_bind, run_publish]
  cases env.raises c.outside.history (.publish sub.id) <;> rfl

theorem run_expireDeadline {c : Ctx} (h : c.state.Wf) {sid : String} {d : ℚ}
    (hd : c.state.deadlines.get? sid = some d) :
    (expireDeadline now sid).run c =
      if d < now then
        (.ok true, c.update fun s => (s.dropDeadline sid).retryOrFail sid "timeout" now)
      else (.ok false, c) := by
  obtain ⟨sub, -, -, hg⟩ := h.get? (h.timers sid (.inl (Dict.mem_of_get? hd)))
  have hg' : (c.update (·.dropDeadline sid)).state.plan.get? sid = some sub := hg
  simp only [expireDeadline, Exec.run_bind, Exec.run_get, hd]
  by_cases hlt : d < now
  · simp only [if_pos hlt, modifyState, Exec.run_bind, Exec.run_modify, run_scheduleRetryOrFail hg',
      Exec.run_pure]
    rfl
  · rw [if_neg hlt, if_neg hlt]; rfl

theorem run_republish {c : Ctx} {sid : String} {due : ℚ} {sub : Subtask}
    (hr : c.state.retryAt.get? sid = some due) (hg : c.state.plan.get? sid = some sub) :
    (republish env cfg now sid).run c =
      if due ≤ now then
        if env.raises c.outside.history (.publish sub.id) then
          (.error .external, (c.update (·.dropRetry sid)).note (.publishFailed sub.id))
        else (.ok true, (c.update (·.dropRetry sid)).published env cfg now sub)
      else (.ok false, c) := by
  have hg' : (c.update (·.dropRetry sid)).state.plan.get? sid = some sub := hg
  simp only [republish, Exec.run_bind, Exec.run_get, hr]
  by_cases hle : due ≤ now
  · have he : (c.update (·.dropRetry sid)).outside = c.outside := rfl
    simp only [if_pos hle, modifyState, Exec.run_bind, Exec.run_modify, run_planGet hg', run_publish, he]
    cases env.raises c.outside.history (.publish sub.id) <;> rfl
  · rw [if_neg hle, if_neg hle]; rfl

/-- Nothing changed, or one move, or one fault. -/
abbrev AdvanceOutcome (env : Env) (cfg : Config) (now : ℚ) : Ctx → Except PyError Bool × Ctx → Prop :=
  Exec.Outcome (Move env cfg now) (Fault env now)

theorem outcome_advanceSubtask (sub : Subtask) (c : Ctx) (h : c.state.Wf)
    (hs : sub ∈ c.state.plan.subtasks) :
    AdvanceOutcome env cfg now c ((advanceSubtask env cfg now sub).run c) := by
  rw [run_advanceSubtask env cfg now h hs]
  split
  · rfl
  · rename_i hn
    simp only [not_or, not_not] at hn
    obtain ⟨hpub, hpend, hdeps⟩ := hn
    split
    · rename_i hj
      split
      · rename_i hr
        exact ⟨c, .refl, .ready hs hpub hpend hdeps hj hr⟩
      · exact .single (.ready hs hpub hpend hdeps hj)
    · rename_i hj
      exact .single (.skip _ hs hpub hpend hdeps hj)

theorem outcome_expireDeadline (sid : String) (c : Ctx) (h : c.state.Wf) (hk : sid ∈ c.state.deadlines) :
    AdvanceOutcome env cfg now c ((expireDeadline now sid).run c) := by
  obtain ⟨d, hd⟩ := Dict.exists_get? hk
  rw [run_expireDeadline h hd]
  split
  · rename_i hlt; exact .single (.expire hd hlt)
  · rfl

theorem outcome_republish (sid : String) (c : Ctx) (h : c.state.Wf) (hk : sid ∈ c.state.retryAt) :
    AdvanceOutcome env cfg now c ((republish env cfg now sid).run c) := by
  obtain ⟨due, hr⟩ := Dict.exists_get? hk
  obtain ⟨sub, -, -, hg⟩ := h.get? (h.timers sid (.inr hk))
  rw [run_republish hr hg]
  split
  · rename_i hle
    split
    · rename_i hraise
      exact ⟨c, .refl, .again hr hle hg (by rw [(Plan.mem_of_get? hg).2] at hraise ⊢; exact hraise)⟩
    · exact .single (.again hr hle hg)
  · rfl

/-- Expiring one deadline leaves the others in place. -/
theorem keeps_expireDeadline {a b : String} (hne : a ≠ b) :
    Exec.Keeps (fun c : Ctx => c.state.Wf) (fun sid c => sid ∈ c.state.deadlines)
      (expireDeadline now) a b := by
  intro c c' x h ha hb hr
  obtain ⟨d, hd⟩ := Dict.exists_get? ha
  rw [run_expireDeadline h hd] at hr
  split at hr
  · cases hr
    simp only [Ctx.update, retryOrFail]
    split <;> simp only [dropDeadline, TaskState.fail, scheduleRetry, countRetry, Dict.mem_erase] <;>
      exact ⟨hne.symm, by first | exact hb | exact ⟨hne.symm, hb⟩⟩
  · cases hr; exact hb

/-- Requesting one subtask again leaves the other back-offs in place. -/
theorem keeps_republish {a b : String} (hne : a ≠ b) :
    Exec.Keeps (fun c : Ctx => c.state.Wf) (fun sid c => sid ∈ c.state.retryAt)
      (republish env cfg now) a b := by
  intro c c' x h ha hb hr
  obtain ⟨due, hd⟩ := Dict.exists_get? ha
  obtain ⟨sub, -, -, hg⟩ := h.get? (h.timers a (.inr ha))
  rw [run_republish hd hg] at hr
  split at hr
  · split at hr
    · cases hr
    · cases hr
      simp only [Ctx.published, Ctx.update, markPublished, dropRetry, Dict.mem_erase]
      exact ⟨hne.symm, hb⟩
  · cases hr; exact hb

theorem keeps_advanceSubtask (a b : Subtask) :
    Exec.Keeps (fun c : Ctx => c.state.Wf) (fun sub c => sub ∈ c.state.plan.subtasks)
      (advanceSubtask env cfg now) a b := by
  intro c c' x h ha hb hr
  rw [run_advanceSubtask env cfg now h ha] at hr
  split at hr
  · cases hr; exact hb
  · split at hr
    · split at hr
      · cases hr
      · cases hr; exact hb
    · cases hr; exact hb

theorem wf_stable (c c' : Ctx) (h : c.state.Wf) (hm : Move env cfg now c c') : c'.state.Wf :=
  Wf.move h hm

theorem reports_advanceReady : Exec.Reports (fun c : Ctx => c.state.Wf) (Move env cfg now) (Fault env now)
    (advanceReady env cfg now) :=
  Exec.Reports.bind_get fun c h => Exec.outcome_anyChanged wf_stable outcome_advanceSubtask
    (List.pairwise_of_forall fun _ _ => keeps_advanceSubtask _ _) c h fun _ hs => hs

theorem reports_expireTimeouts : Exec.Reports (fun c : Ctx => c.state.Wf) (Move env cfg now)
    (Fault env now) (expireTimeouts now) :=
  Exec.Reports.bind_get fun c h => Exec.outcome_anyChanged wf_stable outcome_expireDeadline
    (c.state.deadlines.nodup_keys.imp keeps_expireDeadline) c h fun _ hk => hk

theorem reports_republishDue : Exec.Reports (fun c : Ctx => c.state.Wf) (Move env cfg now)
    (Fault env now) (republishDue env cfg now) :=
  Exec.Reports.bind_get fun c h => Exec.outcome_anyChanged wf_stable outcome_republish
    (c.state.retryAt.nodup_keys.imp keeps_republish) c h fun _ hk => hk

theorem reports_advanceTimers : Exec.Reports (fun c : Ctx => c.state.Wf) (Move env cfg now)
    (Fault env now) (advanceTimers env cfg now) :=
  Exec.Reports.orElse wf_stable reports_expireTimeouts reports_republishDue

theorem reports_advanceRound : Exec.Reports (fun c : Ctx => c.state.Wf) (Move env cfg now)
    (Fault env now) (advanceRound env cfg now) :=
  Exec.Reports.orElse wf_stable reports_advanceReady reports_advanceTimers

/-- A round that changed nothing found nothing to do. -/
theorem settled_of_quiet {c c' : Ctx} (h : c.state.Wf)
    (hr : (advanceRound env cfg now).run c = (.ok false, c')) : Settled now c.state := by
  obtain ⟨h1, h23⟩ := Exec.quiet_orElse (y := advanceTimers env cfg now) reports_advanceReady h hr
  obtain ⟨h2, h3⟩ := Exec.quiet_orElse (y := republishDue env cfg now)
    (@reports_expireTimeouts env cfg now) h h23
  constructor
  case ready =>
    intro sub hs hpend hpub hdeps
    have := Exec.quiet_anyChanged (R := Move env cfg now) (F := Fault env now)
      outcome_advanceSubtask h (fun _ hs => hs) h1 sub hs
    rw [run_advanceSubtask env cfg now h hs, if_neg (by tauto)] at this
    split at this
    · split at this <;> cases this
    · cases this
  case expired =>
    intro sid d hd
    have := Exec.quiet_anyChanged (R := Move env cfg now) (F := Fault env now)
      outcome_expireDeadline h (fun _ hk => hk) h2 sid (Dict.mem_of_get? hd)
    rw [run_expireDeadline h hd] at this
    split at this
    · cases this
    · rename_i hn; exact not_lt.mp hn
  case due =>
    intro sid t ht
    obtain ⟨sub, -, -, hg⟩ := h.get? (h.timers sid (.inr (Dict.mem_of_get? ht)))
    have := Exec.quiet_anyChanged (R := Move env cfg now) (F := Fault env now)
      outcome_republish h (fun _ hk => hk) h3 sid (Dict.mem_of_get? ht)
    rw [run_republish ht hg] at this
    split at this
    · split at this <;> cases this
    · rename_i hn; exact not_le.mp hn

/-- **`_advance`.** On a well-formed state it makes moves until nothing is left
to do, or raises what a request raised. It never runs out of rounds. -/
theorem advance_run (env : Env) (cfg : Config) (now : ℚ) (c : Ctx) (h : c.state.Wf) :
    (∃ c', (advance env cfg now).run c = (.ok (), c') ∧ ReflTransGen (Move env cfg now) c c' ∧
      Settled now c'.state) ∨
    (∃ e c' m, (advance env cfg now).run c = (.error e, c') ∧ ReflTransGen (Move env cfg now) c m ∧
      Fault env now e m c') := by
  have hrun : (advance env cfg now).run c =
      (Exec.whileChanged (advanceRound env cfg now) .loops (roundBound c.state.plan)).run c := rfl
  rcases reports_advanceRound.whileChanged wf_stable potential (fun _ _ h hm => hm.potential_lt h) .loops
    _ c h (potential_lt_roundBound h) with ⟨c', h1, h2, h3⟩ | ⟨e, c', m, h1, h2, h3⟩
  · exact .inl ⟨c', hrun.trans h1, h2, settled_of_quiet (Exec.stable_star wf_stable h2 h) h3⟩
  · exact .inr ⟨e, c', m, hrun.trans h1, h2, h3⟩

end

end MasResearch.L2
