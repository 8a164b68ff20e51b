import MasResearch.L3Runs.Runs

/-!
# What a task's history tells

Whatever arrives in the inbox,

* an entry of `results` is never changed or removed (`extends_move`,
  `extends_routed`), so of two results maps a history mentions the later one
  extends the earlier one (`Ordered`);
* every request of the history is for a subtask of one and the same task's plan,
  carries the payload built from the results of that moment, and every
  finalization is of that task (`EventOf`).

`Chronicle` is the invariant, and `taskInv_chronicle` what later modules use.
-/
namespace MasResearch.L3

open MasResearch.L1 MasResearch.L2 Relation TaskState

/-! ## Results are write-once -/

theorem extends_retryOrFail {s : TaskState} {sid : String} (h : sid ∉ s.results) (reason : String) (now : ℚ) :
    Extends s.results (s.retryOrFail sid reason now).results := by
  unfold retryOrFail
  split
  · exact extends_set h none
  · exact Extends.refl _

section

variable {env : Env} {cfg : Config} {now : ℚ}

theorem extends_move {c c' : Ctx} (h : c.state.Wf) (hm : Move env cfg now c c') :
    Extends c.state.results c'.state.results := by
  cases hm with
  | ready => exact Extends.refl _
  | skip _ _ _ hpend => exact extends_set (h.disjoint _ hpend) none
  | @expire sid d hd _ =>
    have hp := h.timers _ (.inl (Dict.mem_of_get? hd))
    exact extends_retryOrFail (s := c.state.dropDeadline sid) (h.disjoint _ hp) _ _
  | again => exact Extends.refl _

theorem extends_routed {m : Message} {s s' : TaskState} {jobs : List Job} (h : s.Wf)
    (hr : Routed env now m s jobs s') : Extends s.results s'.results := by
  cases hr with
  | ignored => exact Extends.refl _
  | @refused sid _ hp _ => exact extends_retryOrFail (s := s.countMessage.dropDeadline sid) (h.disjoint _ hp) _ _
  | informed _ hp _ _ => exact extends_set (h.disjoint _ hp) _

end

/-! ## The chronicle of a task -/

/-- The results map an event was made from. -/
def snapshot : Event → Option Results
  | .published _ _ results _ _ => some results
  | .finalizing _ _ s => some s.results
  | _ => none

/-- The newest event comes first, its map extends the older ones. -/
def Ordered (h : List Event) : Prop :=
  h.Pairwise fun e e' => ∀ r r', snapshot e = some r → snapshot e' = some r' → Extends r' r

/-- Of two results maps a history mentions one extends the other. -/
theorem Ordered.comparable {h : List Event} (ho : Ordered h) {e e' : Event} (he : e ∈ h) (he' : e' ∈ h)
    {r r' : Results} (hr : snapshot e = some r) (hr' : snapshot e' = some r') :
    Extends r r' ∨ Extends r' r := by
  let R (e e' : Event) : Prop := ∀ r r', snapshot e = some r → snapshot e' = some r' →
    Extends r r' ∨ Extends r' r
  have hself : ∀ e ∈ h, R e e := by
    intro e _ r r' h1 h2
    rw [h1] at h2; cases h2
    exact .inl (Extends.refl _)
  have hR : h.Pairwise R := ho.imp fun hx r r' h1 h2 => .inr (hx r r' h1 h2)
  have hflip : h.Pairwise (flip R) := ho.imp fun hx r r' h1 h2 => .inl (hx r' r h2 h1)
  exact hR.forall_of_forall_of_flip hself hflip he he' r r' hr hr'

/-- What requests and finalizations of a task look like. -/
def EventOf (task : Task) : Event → Prop
  | .published channel sub results request _ =>
    sub ∈ (buildPlan task).subtasks ∧ channel = channelForAgent sub.agent.value ∧
      request.taskId = task.id ∧ request.subtaskId = some sub.id ∧
      request.content = buildPayload sub task results ∧ InPlan task results
  | .finalizing _ status s =>
    s.task = task ∧ s.Wf ∧ status = determineFinalStatus s.plan s.results
  | _ => True

theorem snapshot_of_quiet {e : Event} (hq : e.quiet = true) : snapshot e = none := by
  cases e <;> first | rfl | cases hq

theorem eventOf_of_quiet (task : Task) {e : Event} (hq : e.quiet = true) : EventOf task e := by
  cases e <;> trivial

structure Chronicle (s : TaskState) (h : List Event) : Prop where
  about : ∀ e ∈ h, EventOf s.task e
  ordered : Ordered h
  below : ∀ e ∈ h, ∀ r, snapshot e = some r → Extends r s.results

theorem Chronicle.state {s s' : TaskState} {h : List Event} (hc : Chronicle s h) (ht : s'.task = s.task)
    (he : Extends s.results s'.results) : Chronicle s' h :=
  ⟨fun e hm => by rw [ht]; exact hc.about e hm, hc.ordered, fun e hm r hr => (hc.below e hm r hr).trans he⟩

theorem Chronicle.cons {s : TaskState} {h : List Event} {e : Event} (hc : Chronicle s h)
    (he : EventOf s.task e) (hs : ∀ r, snapshot e = some r → r = s.results) : Chronicle s (e :: h) where
  about e' hm := by
    rcases List.mem_cons.mp hm with rfl | hm
    · exact he
    · exact hc.about e' hm
  ordered := List.pairwise_cons.mpr ⟨fun e' hm r r' hr hr' => by rw [hs r hr]; exact hc.below e' hm r' hr',
    hc.ordered⟩
  below e' hm r hr := by
    rcases List.mem_cons.mp hm with rfl | hm
    · rw [hs r hr]; exact Extends.refl _
    · exact hc.below e' hm r hr

theorem inPlan_of_wf {s : TaskState} (h : s.Wf) : InPlan s.task s.results :=
  fun sid hm => (h.cover sid).mpr (.inr hm)

/-- A request is recorded as what it is. -/
theorem Chronicle.published {c : Ctx} (hc : Chronicle c.state c.outside.history)
    (hin : InPlan c.state.task c.state.results) {sub : Subtask}
    (hs : sub ∈ (buildPlan c.state.task).subtasks) (env : Env) (cfg : Config) (now : ℚ) :
    Chronicle (c.published env cfg now sub).state (c.published env cfg now sub).outside.history := by
  refine Chronicle.cons (hc.state rfl (Extends.refl _)) ?_ ?_
  · exact ⟨hs, rfl, rfl, rfl, rfl, hin⟩
  · rintro r ⟨⟩; rfl

theorem taskInv_chronicle (A : Assumptions) (env : Env) (cfg : Config) :
    TaskInv A env cfg Chronicle fun h => Ordered h ∧ ∃ task, ∀ e ∈ h, EventOf task e where
  submitted task now _ := ⟨by simp, .nil, by simp⟩
  resumed task results now _ := ⟨by simp, .nil, by simp⟩
  move := by
    intro now s o c hc hwf hm _
    cases hm with
    | ready hs =>
      rw [hwf.plan_eq] at hs
      exact hc.published (c := ⟨s, o⟩) (inPlan_of_wf hwf) hs env cfg now
    | skip _ _ _ hpend => exact hc.state rfl (extends_set (hwf.disjoint _ hpend) none)
    | @expire sid d hd hlt =>
      have hm : Move env cfg now ⟨s, o⟩ _ := .expire hd hlt
      exact hc.state hm.frame.1 (extends_move hwf hm)
    | @again sid due sub hr hle hs =>
      have hs : sub ∈ s.plan.subtasks := (Plan.mem_of_get? hs).1
      rw [hwf.plan_eq] at hs
      exact Chronicle.published (c := ⟨s.dropRetry sid, o⟩) (hc.state rfl (Extends.refl _))
        (inPlan_of_wf (s := s) hwf) hs env cfg now
  routed h hwf _ hr := (h.state hr.frame.1 (extends_routed hwf hr)).cons trivial (fun _ he => by cases he)
  finalizing _ h hwf _ := h.cons ⟨rfl, hwf, rfl⟩ (fun _ he => by cases he; rfl)
  recorded hc hq := hc.cons (eventOf_of_quiet _ hq) fun r hr => by rw [snapshot_of_quiet hq] at hr; cases hr
  history h := ⟨h.ordered, _, h.about⟩
  empty := ⟨.nil, default, by simp⟩
  quiet := by
    intro h e hc hq
    obtain ⟨ho, task, ha⟩ := hc
    refine ⟨List.pairwise_cons.mpr ⟨fun e' _ r r' hr _ => ?_, ho⟩, task, fun e' hm => ?_⟩
    · rw [snapshot_of_quiet hq] at hr; cases hr
    · rcases List.mem_cons.mp hm with rfl | hm
      · exact eventOf_of_quiet _ hq
      · exact ha e' hm

end MasResearch.L3
