import MasResearch.L2Dispatch.Finalize

/-!
# The first `_advance` of a task

`submit` and `_resume` build a state in which nothing has failed or been retried
(`Unspent`). Its first round requests, in plan order, the subtasks whose
dependencies all have a content (`openSubtasks`); afterwards the only thing left
to do is to expire a deadline that a negative timeout put into the past (`Idle`).

* `run_advance_first`: the first `_advance` makes these requests, or raises at the
  first of them that raises; `requestAll` is the history it leaves.
* `run_enrol_open`, `run_enrol_done`: so `submit` and `_resume` register the task
  and leave its pending subtasks pending, or finalize it.
-/
namespace MasResearch.L2

open MasResearch.L1 Relation TaskState

/-- A state nothing was tried for yet: every entry of `results` is a content. -/
structure Unspent (s : TaskState) : Prop where
  wf : s.Wf
  contents : ∀ sid ∈ s.results, (s.results.content? sid).isSome
  retryAt : ∀ sid, sid ∉ s.retryAt
  retries : ∀ sid, s.retries sid = 0

theorem unspent_submitted (task : Task) (now : ℚ) : Unspent (TaskState.submitted task now) where
  wf := (exact_submitted task now).toWf
  contents := by simp [submitted]
  retryAt := by simp [submitted]
  retries _ := rfl

theorem unspent_resumed (task : Task) (results : Dict String Content) (now : ℚ) :
    Unspent (TaskState.resumed task results now) where
  wf := (exact_resumed task results now).toWf
  contents := by
    intro sid h
    simp only [resumed, Dict.mem_mapVals] at h
    obtain ⟨c, hc⟩ := Dict.exists_get? h
    simp [resumed, content?_eq, hc]
  retryAt := by simp [resumed]
  retries _ := rfl

/-- Without failures resolved dependencies meet every join rule. -/
theorem Unspent.joinMet {s : TaskState} (h : Unspent s) {sub : Subtask} (hd : DepsResolved sub s.results) :
    JoinMet sub s.results := by
  unfold JoinMet
  by_cases h0 : sub.dependsOn = []
  · exact .inl h0
  · right
    obtain ⟨d, hm⟩ := List.exists_mem_of_ne_nil _ h0
    cases sub.join with
    | any => exact ⟨d, hm, h.contents d (hd d hm)⟩
    | all => exact fun dep hdep => h.contents dep (hd dep hdep)

/-! ## The requests of the first round -/

/-- The subtasks of the list that `_advance` requests, `seen` being published. -/
def openSubtasks (s : TaskState) : Finset String → List Subtask → List Subtask
  | _, [] => []
  | seen, sub :: subs =>
    if sub.id ∉ seen ∧ sub.id ∈ s.pending ∧ DepsResolved sub s.results then
      sub :: openSubtasks s (insert sub.id seen) subs
    else openSubtasks s seen subs

/-- The event of a request for `sub` after the history `h`. -/
def requestEvent (env : Env) (now : ℚ) (s : TaskState) (h : List Event) (sub : Subtask) : Event :=
  .published (channelForAgent sub.agent.value) sub s.results (Ctx.request env ⟨s, ⟨h, none⟩⟩ sub) now

/-- The history once every subtask of the list is requested; `none` if a request raises. -/
def requestAll (env : Env) (now : ℚ) (s : TaskState) : List Event → List Subtask → Option (List Event)
  | h, [] => some h
  | h, sub :: subs =>
    if env.raises h (.publish sub.id) then none
    else requestAll env now s (requestEvent env now s h sub :: h) subs

/-- What is left to do for the task is the same. -/
structure SameWork (s s' : TaskState) : Prop where
  task : s'.task = s.task
  plan : s'.plan = s.plan
  pending : s'.pending = s.pending
  results : s'.results = s.results

theorem SameWork.refl (s : TaskState) : SameWork s s := ⟨rfl, rfl, rfl, rfl⟩

theorem SameWork.trans {s s' s'' : TaskState} (h : SameWork s s') (h' : SameWork s' s'') : SameWork s s'' :=
  ⟨h'.task.trans h.task, h'.plan.trans h.plan, h'.pending.trans h.pending, h'.results.trans h.results⟩

theorem requestEvent_congr {env : Env} {now : ℚ} {s s' : TaskState} (h : SameWork s s') (hist : List Event)
    (sub : Subtask) : requestEvent env now s' hist sub = requestEvent env now s hist sub := by
  simp only [requestEvent, Ctx.request, h.task, h.results]

section

variable {env : Env} {cfg : Config} {now : ℚ}

/-- What the readiness loop has done to a context at the end of the list. -/
structure FirstPass (s : TaskState) (subs : List Subtask) (h : List Event) (c c' : Ctx) : Prop where
  unspent : Unspent c'.state
  same : SameWork s c'.state
  outside : c'.outside = { c.outside with history := h }
  grows : c.state.published ⊆ c'.state.published
  covers : ∀ sub ∈ subs, sub.id ∈ s.pending → DepsResolved sub s.results → sub.id ∈ c'.state.published

theorem Unspent.published {c : Ctx} (h : Unspent c.state) {sub : Subtask} (hp : sub.id ∈ c.state.pending) :
    Unspent (c.published env cfg now sub).state :=
  ⟨h.wf.markPublished hp _ _, h.contents, h.retryAt, h.retries⟩

/-- The readiness loop over an unspent state, by induction on the list. -/
theorem run_advanceReady_unspent (env : Env) (cfg : Config) (now : ℚ) {s : TaskState} :
    ∀ (subs : List Subtask) (c : Ctx), Unspent c.state → SameWork s c.state → (∀ sub ∈ subs, sub ∈ s.plan.subtasks) →
    (requestAll env now s c.outside.history (openSubtasks s c.state.published subs) = none ∧
      ∃ c', (Exec.anyChanged subs (advanceSubtask env cfg now)).run c = (.error .external, c')) ∨
    ∃ h b c', requestAll env now s c.outside.history (openSubtasks s c.state.published subs) = some h ∧
      (Exec.anyChanged subs (advanceSubtask env cfg now)).run c = (.ok b, c') ∧ FirstPass s subs h c c'
  | [], c, hu, hs, _ => .inr ⟨_, false, c, rfl, rfl, hu, hs, rfl, subset_rfl, by simp⟩
  | sub :: subs, c, hu, hs, hsub => by
    have hmem : sub ∈ c.state.plan.subtasks := by rw [hs.plan]; exact hsub sub List.mem_cons_self
    have hrest := fun t ht => hsub t (List.mem_cons_of_mem sub ht)
    have hrun := run_advanceSubtask env cfg now hu.wf hmem
    rw [hs.pending, hs.results] at hrun
    by_cases hopen : sub.id ∉ c.state.published ∧ sub.id ∈ s.pending ∧ DepsResolved sub s.results
    case neg =>
      -- the loop passes this subtask over
      rw [if_pos (by tauto)] at hrun
      simp only [openSubtasks, if_neg hopen, Exec.anyChanged, Exec.run_bind, hrun]
      rcases run_advanceReady_unspent env cfg now subs c hu hs hrest with
        ⟨hn, c', h1⟩ | ⟨h, b, c', hsome, h1, hq⟩
      · exact .inl ⟨hn, c', by simp only [h1]⟩
      · refine .inr ⟨h, b, c', hsome, by simp [h1], hq.unspent, hq.same, hq.outside, hq.grows, ?_⟩
        intro t ht hp hd
        rcases List.mem_cons.mp ht with rfl | ht
        · exact hq.grows (by tauto)
        · exact hq.covers t ht hp hd
    obtain ⟨hpub, hpend, hdeps⟩ := hopen
    have hj : JoinMet sub s.results := by rw [← hs.results] at hdeps ⊢; exact hu.joinMet hdeps
    rw [if_neg (by tauto), if_pos hj] at hrun
    simp only [openSubtasks, if_pos (show sub.id ∉ c.state.published ∧ sub.id ∈ s.pending ∧
      DepsResolved sub s.results from ⟨hpub, hpend, hdeps⟩), requestAll]
    cases hr : env.raises c.outside.history (.publish sub.id) with
    | true =>
      refine .inl ⟨by simp, c.note (.publishFailed sub.id), ?_⟩
      rw [hr, if_pos rfl] at hrun
      simp only [Exec.anyChanged, Exec.run_bind, hrun]
    | false =>
      rw [hr, if_neg (by simp)] at hrun
      have hev : requestEvent env now s c.outside.history sub =
          .published (channelForAgent sub.agent.value) sub c.state.results (c.request env sub) now :=
        (requestEvent_congr hs _ _).symm
      have hs' : SameWork s (c.published env cfg now sub).state := ⟨hs.task, hs.plan, hs.pending, hs.results⟩
      have ih := run_advanceReady_unspent env cfg now subs (c.published env cfg now sub)
        (hu.published (by rw [hs.pending]; exact hpend)) hs' hrest
      simp only [Bool.false_eq_true, if_false, Exec.anyChanged, Exec.run_bind, hrun, hev]
      rcases ih with ⟨hn, c', h1⟩ | ⟨h, b, c', hsome, h1, hq⟩
      · exact .inl ⟨hn, c', by simp only [h1]⟩
      · refine .inr ⟨h, true, c', hsome, by simp [h1], hq.unspent, hq.same, hq.outside,
          (Finset.subset_insert _ _).trans hq.grows, ?_⟩
        intro t ht hp hd
        rcases List.mem_cons.mp ht with rfl | ht
        · exact hq.grows (Finset.mem_insert_self _ _)
        · exact hq.covers t ht hp hd

/-! ## After the requests -/

/-- Nothing but expired deadlines to work on, each with a retry to spare. -/
structure Idle (now : ℚ) (s : TaskState) : Prop where
  ready : ∀ sub ∈ s.plan.subtasks, sub.id ∈ s.pending → sub.id ∉ s.published → ¬ DepsResolved sub s.results
  due : NothingDue now s
  spare : ∀ sid ∈ s.deadlines, s.retries sid < retryMax

theorem Idle.no_fault {e : PyError} {c c' : Ctx} (h : Idle now c.state) : ¬ Fault env now e c c' := by
  intro hf
  cases hf with
  | ready hs hpub hpend hdeps => exact h.ready _ hs hpend hpub hdeps
  | again hr hle => exact absurd hle (not_le.mpr (h.due _ _ hr))

/-- An idle state only expires deadlines: its work stays and nothing leaves the process. -/
theorem Idle.move {c c' : Ctx} (h : Idle now c.state) (hm : Move env cfg now c c') :
    Idle now c'.state ∧ SameWork c.state c'.state ∧ c'.outside = c.outside := by
  have hdue := h.due.move hm
  cases hm with
  | ready hs hpub hpend hdeps => exact absurd hdeps (h.ready _ hs hpend hpub)
  | skip _ hs hpub hpend hdeps => exact absurd hdeps (h.ready _ hs hpend hpub)
  | again hr hle => exact absurd hle (not_le.mpr (h.due _ _ hr))
  | @expire sid d hd _ =>
    have hlt := h.spare sid (Dict.mem_of_get? hd)
    have hlt' : (c.state.dropDeadline sid).retries sid < retryMax := hlt
    simp only [Ctx.update, retryOrFail_of_lt hlt'] at hdue ⊢
    refine ⟨⟨h.ready, hdue, fun k hk => ?_⟩, ⟨rfl, rfl, rfl, rfl⟩, trivial⟩
    simp only [scheduleRetry, countRetry, dropDeadline, Dict.mem_erase] at hk
    have e := retries_countRetry (c.state.dropDeadline sid) sid k
    rw [if_neg hk.1] at e
    exact lt_of_eq_of_lt e (h.spare k hk.2)

/-- **The first `_advance`.** It requests the open subtasks and leaves the work as
it was, or raises because one of these requests raises. -/
theorem run_advance_first (env : Env) (cfg : Config) (now : ℚ) {s : TaskState} (hu : Unspent s) (o : Outside) :
    (requestAll env now s o.history (openSubtasks s s.published s.plan.subtasks) = none ∧
      ∃ c', (advance env cfg now).run ⟨s, o⟩ = (.error .external, c')) ∨
    ∃ h s', requestAll env now s o.history (openSubtasks s s.published s.plan.subtasks) = some h ∧
      (advance env cfg now).run ⟨s, o⟩ = (.ok (), ⟨s', { o with history := h }⟩) ∧ SameWork s s' := by
  have hrun : (advance env cfg now).run ⟨s, o⟩ =
      (Exec.whileChanged (advanceRound env cfg now) .loops (roundBound s.plan)).run ⟨s, o⟩ := rfl
  have hready : (advanceReady env cfg now).run ⟨s, o⟩ =
      (Exec.anyChanged s.plan.subtasks (advanceSubtask env cfg now)).run ⟨s, o⟩ := rfl
  rcases run_advanceReady_unspent env cfg now s.plan.subtasks ⟨s, o⟩ hu (.refl s)
    (fun _ h => h) with ⟨hn, c', h1⟩ | ⟨h, b, c₁, hsome, h1, hq⟩
  · refine .inl ⟨hn, c', ?_⟩
    have hround : (advanceRound env cfg now).run ⟨s, o⟩ = (.error .external, c') :=
      Exec.run_bind_error (hready.trans h1)
    rw [hrun, roundBound, Exec.whileChanged, Exec.run_bind_error hround]
  refine .inr ⟨h, ?_⟩
  have hidle : Idle now c₁.state := by
    constructor
    case ready =>
      intro sub hs hp hpub hd
      rw [hq.same.pending] at hp
      rw [hq.same.results] at hd
      rw [hq.same.plan] at hs
      exact hpub (hq.covers sub hs hp hd)
    case due => exact fun sid t ht => absurd (Dict.mem_of_get? ht) (hq.unspent.retryAt sid)
    case spare => intro sid _; rw [hq.unspent.retries]; decide
  -- from the first round on: idle, the same work, the same outside
  let Q : Ctx → Prop := fun c => Idle now c.state ∧ SameWork s c.state ∧ c.outside = c₁.outside
  have hQ : ∀ c c' : Ctx, c.state.Wf → Q c → Move env cfg now c c' → Q c' := fun c c' _ hc hm =>
    ⟨(hc.1.move hm).1, hc.2.1.trans (hc.1.move hm).2.1, (hc.1.move hm).2.2.trans hc.2.2⟩
  have hF : ∀ e (c c' : Ctx), c.state.Wf → Q c → ¬ Fault env now e c c' := fun _ _ _ _ hc => hc.1.no_fault
  have hQ₁ : Q c₁ := ⟨hidle, hq.same, rfl⟩
  have htimers := @reports_advanceTimers env cfg now c₁ hq.unspent.wf
  have hstar : ∀ {c : Ctx}, ReflTransGen (Move env cfg now) c₁ c → c.state.Wf ∧ Q c := fun hm =>
    Exec.stable_star (P := fun c : Ctx => c.state.Wf ∧ Q c)
      (fun c c' hc hm => ⟨wf_stable c c' hc.1 hm, hQ c c' hc.1 hc.2 hm⟩) hm ⟨hq.unspent.wf, hQ₁⟩
  generalize h2 : (advanceTimers env cfg now).run c₁ = r at htimers
  obtain ⟨_ | b', c₂⟩ := r
  · obtain ⟨m, hm, hf⟩ := htimers
    exact absurd hf (hF _ _ _ (hstar hm).1 (hstar hm).2)
  have hround : (advanceRound env cfg now).run ⟨s, o⟩ = (.ok (b || b'), c₂) := by
    rw [advanceRound, Exec.run_bind_ok (hready.trans h1), Exec.run_bind_ok h2, Exec.run_pure]
  obtain ⟨c', h3, -, hsame, hout⟩ := reports_advanceRound.whileChanged_of_round wf_stable potential
    (fun _ _ h hm => hm.potential_lt h) .loops hQ hF hu.wf (potential_lt_roundBound (c := ⟨s, o⟩) hu.wf) hround
    (hstar htimers.star).2
  refine ⟨c'.state, hsome, ?_, hsame⟩
  rw [hrun, h3]
  have : c'.outside = { o with history := h } := hout.trans hq.outside
  rw [← this]

/-! ## Registration -/

/-- With something pending, `submit` and `_resume` register the task and request
its open subtasks. -/
theorem run_enrol_open (env : Env) (cfg : Config) (now : ℚ) (who : Registrar) {s : TaskState} (hu : Unspent s)
    (hp : s.pending ≠ ∅) (st : Option TaskState) (o : Outside) (g : Int) :
    (requestAll env now s (.registered who :: o.history) (openSubtasks s s.published s.plan.subtasks) = none ∧
      ∃ l', (enrol env cfg who s now).run ⟨st, o, g⟩ = (.error .external, l')) ∨
    ∃ h s', requestAll env now s (.registered who :: o.history) (openSubtasks s s.published s.plan.subtasks) =
        some h ∧
      (enrol env cfg who s now).run ⟨st, o, g⟩ = (.ok (), ⟨some s', { o with history := h }, g + 1⟩) ∧
      SameWork s s' := by
  rw [enrol, if_neg hp]
  simp only [Exec.run_bind, Exec.run_modify, Slot.register]
  rcases run_advance_first env cfg now hu (o.note (.registered who)) with ⟨hn, c', h1⟩ | ⟨h, s', hsome, h1, hs⟩
  · exact .inl ⟨hn, _, by rw [run_onState h1]⟩
  · refine .inr ⟨h, s', hsome, ?_, hs⟩
    rw [run_onState h1]
    dsimp only
    rw [run_maybeFinalize, if_neg (by rw [hs.pending]; exact hp)]
    rfl

/-- With nothing pending they finalize it without registering it. -/
theorem run_enrol_done (env : Env) (cfg : Config) (now : ℚ) (who : Registrar) {s : TaskState}
    (hp : s.pending = ∅) (st : Option TaskState) (o : Outside) (g : Int) :
    ∃ r o', (enrol env cfg who s now).run ⟨st, o, g⟩ = (r, ⟨st, o', g⟩) ∧
      FinalizeOutcome env .resolved now s o r o' := by
  obtain ⟨r, o', h1, hf⟩ := run_finalize_outcome env .resolved now s o
  exact ⟨r, o', by rw [enrol, if_pos hp, onDetached, Exec.run_zoom, h1], hf⟩

end

end MasResearch.L2
