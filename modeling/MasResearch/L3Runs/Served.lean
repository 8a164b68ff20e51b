import MasResearch.L3Runs.Clients
import MasResearch.L3Runs.Deployment

/-!
# Every task is served

A task whose global deadline is over is finalized in the next tick that reads the inbox. The tick
goes through every call that may raise; unless one does, the artifact is in the row and a client
gets it, since no artifact fails to be assembled.

* `over_slotTick`: what such a tick leaves of a task.
* `tasks_served`: in a deployment the task is gone, and served unless a call raised.
-/
namespace MasResearch.L3

open MasResearch.L1 MasResearch.L2 Relation TaskState

/-- A call that raised. -/
def raisedCall : Event → Bool
  | .publishFailed _ | .artifactFailed | .statusFailed _ => true
  | _ => false

/-- A call raised since the history was `h`. -/
def RaisedSince (h h' : List Event) : Prop := ∃ new, h' = new ++ h ∧ ∃ e ∈ new, raisedCall e = true

/-- A call raised since then, or there is an artifact that cannot be assembled. -/
def Mishap (env : Env) (now : ℚ) (h h' : List Event) : Prop :=
  RaisedSince h h' ∨ ∃ cause status s e, Event.finalizing cause status s ∈ h' ∧
    assembleArtifact env.validators s status now = .error e

/-- The task is over: a client is served, unless there was a mishap. -/
structure Over (env : Env) (now : ℚ) (h : List Event) (l : Slot) : Prop where
  gone : l.state = none
  served : Mishap env now h l.outside.history ∨ ∃ artifact, getTaskResult l.outside.row = .ok artifact

section

variable {env : Env} {cfg : Config} {now : ℚ} {tid : String} {o : Outside} {a b c : List Event}

theorem not_raisedSince (h : b.any raisedCall = false) : ¬ RaisedSince a b := by
  rintro ⟨new, rfl, e, he, hr⟩
  rw [List.any_eq_false] at h
  exact h e (List.mem_append_left _ he) hr

theorem Mishap.later (h : Mishap env now a b) (hs : b <:+ c) : Mishap env now a c := by
  obtain ⟨more, rfl⟩ := hs
  rcases h with ⟨new, rfl, e, he, hr⟩ | ⟨cause, status, s, e, hm, ha⟩
  · exact .inl ⟨more ++ new, (List.append_assoc ..).symm, e, List.mem_append_right _ he, hr⟩
  · exact .inr ⟨cause, status, s, e, List.mem_append_right _ hm, ha⟩

theorem Mishap.since (h : Mishap env now b c) (hs : a <:+ b) : Mishap env now a c := by
  obtain ⟨more, rfl⟩ := hs
  rcases h with ⟨new, rfl, e, he, hr⟩ | hm
  · exact .inl ⟨new ++ more, (List.append_assoc ..).symm, e, List.mem_append_left _ he, hr⟩
  · exact .inr hm

theorem Over.since {l : Slot} (h : Over env now b l) (hs : a <:+ b) : Over env now a l :=
  ⟨h.gone, h.served.imp_left fun hm => hm.since hs⟩

/-! ## The last tick of a task -/

/-- `_finalize` of a registered task with a row. -/
theorem over_finalizeRegistered (env : Env) (now : ℚ) (cause : Cause) (s : TaskState) (st : Option TaskState)
    (g : Int) :
    ∃ r l', (finalizeRegistered env cause s now).run ⟨st, o, g⟩ = (r, l') ∧ o.history <:+ l'.outside.history ∧
      (r = .ok () → Over env now o.history l') ∧
      ∀ e, r = .error e → Mishap env now o.history l'.outside.history := by
  obtain ⟨r, o', h1, ho⟩ := run_finalize_outcome env cause now s o
  have hfin : (o.finalizing cause s).history =
      .finalizing cause (determineFinalStatus s.plan s.results) s :: o.history := rfl
  simp only [finalizeRegistered, Exec.run_bind, run_onState h1]
  cases ho with
  | rejected ha =>
    refine ⟨_, _, rfl, List.suffix_cons _ _, fun he => (by cases he), fun _ _ => .inr ?_⟩
    exact ⟨cause, _, s, _, List.mem_cons_self, ha⟩
  | unsaved e ha hr =>
    refine ⟨_, _, rfl, (List.suffix_cons _ _).trans (List.suffix_cons _ _), fun he => (by cases he), fun _ _ => .inl ?_⟩
    exact ⟨[.artifactFailed, _], rfl, _, List.mem_cons_self, rfl⟩
  | @unset artifact e ha hr =>
    refine ⟨_, _, rfl, ⟨[.statusFailed artifact.status, .artifactSaved artifact, _], rfl⟩, fun he => (by cases he),
      fun _ _ => .inl ?_⟩
    exact ⟨[.statusFailed artifact.status, .artifactSaved artifact, _], rfl, _, List.mem_cons_self, rfl⟩
  | @stored artifact ha hsome hs hr =>
    obtain ⟨row, artifact', hrow', hart, -, hterm⟩ := (FinalizeOutcome.stored ha hsome hs hr).row
    refine ⟨_, _, rfl, ⟨[.statusSet artifact.status, .artifactSaved artifact, _], rfl⟩, fun _ => ⟨rfl, .inr ?_⟩,
      fun _ he => (by cases he)⟩
    exact ⟨artifact', (congrArg getTaskResult hrow').trans (getTaskResult_ok hterm hart)⟩

/-- One round of the loop of `_tick` after the deadline. -/
theorem over_processTask (env : Env) (cfg : Config) (now : ℚ) {s : TaskState} (hw : s.Wf) (g : Int)
    (hlate : cfg.globalDeadlineSec < now - s.startedAt) :
    ∃ l', (processTask env cfg now).run ⟨some s, o, g⟩ = (.ok (), l') ∧ Over env now o.history l' := by
  -- an error is caught, and the task abandoned
  have habandon : ∀ {e l₁}, (dispatchTask env cfg now).run ⟨some s, o, g⟩ = (.error e, l₁) →
      Mishap env now o.history l₁.outside.history →
      ∃ l', (processTask env cfg now).run ⟨some s, o, g⟩ = (.ok (), l') ∧ Over env now o.history l' := by
    intro e l₁ h1 hm
    obtain ⟨o', h2, ev, -, hh⟩ := run_abandon env l₁.state l₁.outside l₁.inflight
    refine ⟨_, by rw [processTask, Exec.run_attempt, h1]; exact h2, rfl, .inl (hm.later ?_)⟩
    exact ⟨[ev], hh.symm⟩
  suffices h : ∃ r l₁, (dispatchTask env cfg now).run ⟨some s, o, g⟩ = (r, l₁) ∧
      (r = .ok () → Over env now o.history l₁) ∧ ∀ e, r = .error e → Mishap env now o.history l₁.outside.history by
    obtain ⟨r, l₁, h1, hok, herr⟩ := h
    cases r with
    | error e => exact habandon h1 (herr e rfl)
    | ok _ => exact ⟨l₁, by rw [processTask, Exec.run_attempt, h1], hok rfl⟩
  have hgrows : ∀ {m : Ctx}, ReflTransGen (Move env cfg now) ⟨s, o⟩ m → o.history <:+ m.outside.history := by
    intro m hm
    obtain ⟨new, -, hn⟩ := slotSteps_history env cfg now (moves_star hm)
    exact ⟨new, hn.symm⟩
  have hstart : ∀ {m : Ctx}, ReflTransGen (Move env cfg now) ⟨s, o⟩ m → m.state.startedAt = s.startedAt := by
    intro m hm
    induction hm with
    | refl => rfl
    | tail _ hm ih => exact hm.frame.2.2.1.trans ih
  simp only [dispatchTask, Exec.run_bind, Exec.run_get]
  rcases advance_run env cfg now ⟨s, o⟩ hw with ⟨c, h1, hm, -⟩ | ⟨e, c, m, h1, hm, hf⟩
  · rw [run_onState h1]
    dsimp only
    rw [run_maybeFinalize]
    by_cases hp : c.state.pending = ∅
    · rw [if_pos hp]
      obtain ⟨r, l', h2, -, hok, herr⟩ :=
        over_finalizeRegistered env now .resolved c.state (some c.state) g
      rw [h2]
      cases r with
      | error e =>
        exact ⟨.error e, l', rfl, fun he => (by cases he), fun _ _ => (herr e rfl).since (hgrows hm)⟩
      | ok _ =>
        have hend := hok rfl
        simp only [hend.gone]
        exact ⟨_, _, rfl, fun _ => hend.since (hgrows hm), fun _ he => (by cases he)⟩
    · rw [if_neg hp]
      dsimp only
      rw [if_pos (by rw [hstart hm]; exact hlate), deadlineFinalize]
      obtain ⟨r, l', h2, -, hok, herr⟩ :=
        over_finalizeRegistered env now .deadline c.state (some c.state) g
      exact ⟨r, l', h2, fun he => (hok he).since (hgrows hm), fun e he => (herr e he).since (hgrows hm)⟩
  · rw [run_onState h1]
    refine ⟨_, _, rfl, fun he => (by cases he), fun _ _ => ?_⟩
    have hfault : RaisedSince m.outside.history c.outside.history := by
      cases hf <;> exact ⟨[.publishFailed _], rfl, _, List.mem_singleton.mpr rfl, rfl⟩
    exact Mishap.since (.inl hfault) (hgrows hm)

/-- Routing keeps the start time. -/
theorem slotRoutes_frame (env : Env) (now : ℚ) : ∀ (replies : List Message) {l : Slot} {s : TaskState},
    KeyedState tid l.state → l.state = some s →
    ∃ jobs l' s', (slotRoutes env now replies).run l = (.ok jobs, l') ∧ KeyedState tid l'.state ∧
      l'.state = some s' ∧ s'.startedAt = s.startedAt ∧ l.outside.history <:+ l'.outside.history
  | [], l, s, hk, hs => ⟨[], l, s, rfl, hk, hs, rfl, List.suffix_refl _⟩
  | reply :: replies, l, s, hk, hs => by
    obtain ⟨jobs, l1, h1, -, hk1, -, hc⟩ := run_routeTo env now hk reply
    rcases hc with ⟨hn, -⟩ | ⟨s0, s1, hs0, hs1, ho, hr⟩
    · rw [hs] at hn; cases hn
    obtain rfl : s0 = s := Option.some.inj (hs0.symm.trans hs)
    obtain ⟨more, l2, s2, h2, hk2, hs2, ht2, hh2⟩ := slotRoutes_frame env now replies hk1 hs1
    refine ⟨jobs ++ more, l2, s2, by simp only [slotRoutes, Exec.run_bind, h1, h2, Exec.run_pure], hk2, hs2,
      ht2.trans hr.frame.2.2, List.IsSuffix.trans ?_ hh2⟩
    rw [ho]
    exact List.suffix_cons _ _

theorem over_persistResult (job : Job) : Exec.Maintains (Over env now a) (persistResult env job) := by
  intro l h
  obtain ⟨st, o, g⟩ := l
  have hrow := row_of_silent (silent_persistResult env job st o g)
  obtain ⟨o', hq, h1⟩ := run_persistResult env job o
  obtain ⟨new, -, -, hh⟩ := recorded_history hq
  rw [h1] at hrow ⊢
  have hrow : o'.row = o.row := hrow
  exact ⟨h.gone, h.served.imp (fun hm => hm.later ⟨new, hh.symm⟩) fun hs => by rw [hrow]; exact hs⟩

/-- **The last tick of a task.** -/
theorem over_slotTick (env : Env) (cfg : Config) {l : Slot} {s : TaskState} (hk : KeyedState tid l.state)
    (hs : l.state = some s) (hlate : cfg.globalDeadlineSec < now - s.startedAt)
    (replies : List Message) : Over env now l.outside.history ((slotTick env cfg replies now).run l).2 := by
  obtain ⟨jobs, l1, s1, h1, hk1, hs1, ht1, hh1⟩ := slotRoutes_frame env now replies hk hs
  obtain ⟨st1, o1, g1⟩ := l1
  obtain rfl : st1 = some s1 := hs1
  obtain ⟨l2, h2, hend⟩ := over_processTask env cfg now (hk1 s1 rfl).1 g1
    (by rw [ht1]; exact hlate)
  have hpersist := (Exec.Maintains.forEach fun job _ => over_persistResult job :
    Exec.Maintains (Over env now l.outside.history) (Exec.forEach jobs (persistResult env))) l2 (hend.since hh1)
  rw [slotTick, Exec.run_bind_ok h1, Exec.run_bind_ok h2]
  exact hpersist

end

/-! ## Deployments -/

/-- **Every task is served.** In every reachable deployment, whatever the agents sent and however
often the coordinator crashed: the first tick that reads the inbox after a task's global deadline
drops the task, and a client gets its artifact unless some call of that tick raised. -/
theorem tasks_served {κ σ : Type} [LinearOrder κ] (w : Workers κ σ) (ε : Type) {starts : Task → Prop} {env : Env}
    (hv : env.validators.Faithful) {cfg : Config} {d : Deployment}
    (hr : (deployment (w.Informed ε) starts env cfg).Reachable d) {batch : Batch} {now : ℚ} {commits : List Job}
    (he : d.Enabled (w.Informed ε) starts env ⟨.coordinator (.tick batch now), commits⟩) {replies : List Message}
    (hread : ((readInbox batch).run d.system.coordinator.mailbox).1 = .ok replies) {tid : String} {s : TaskState}
    (hs : d.system.coordinator.tasks.get? tid = some s)
    (hlate : cfg.globalDeadlineSec < now - s.startedAt) :
    (next env cfg d.system.coordinator (.tick batch now)).tasks.get? tid = none ∧
    (RaisedSince (d.system.coordinator.outside tid).history
        ((next env cfg d.system.coordinator (.tick batch now)).outside tid).history ∨
      ∃ artifact, getTaskResult ((next env cfg d.system.coordinator (.tick batch now)).outside tid).row =
        .ok artifact) := by
  obtain ⟨hsys, -⟩ := (deployed_inductive w ε starts env cfg).reachable _ (hr.step ⟨he, rfl⟩)
  have hcorr := (correlated_inductive (w.Informed ε) (formedInputs w.quality starts) env cfg).reachable _ hsys
  obtain ⟨hbefore, -⟩ := (deployed_inductive w ε starts env cfg).reachable d hr
  have hk := keyed_of_reachable
    ((correlated_inductive (w.Informed ε) (formedInputs w.quality starts) env cfg).reachable _ hbefore).reachable
  suffices hover : Over env now (d.system.coordinator.outside tid).history
      ((next env cfg d.system.coordinator (.tick batch now)).slot tid) by
    refine ⟨hover.gone, hover.served.imp_left fun hm => hm.resolve_right ?_⟩
    rintro ⟨cause, status, state, e, hmem, hfail⟩
    obtain ⟨artifact, hok, -⟩ := finalized_assembles hv hcorr hmem now
    rw [hfail] at hok
    cases hok
  rw [next, Action.coroutine]
  rcases tick_cases env cfg now batch d.system.coordinator hk with
    ⟨e, m, herr, -⟩ | ⟨replies', m, c', -, hrun, -, hslot⟩
  · rw [herr] at hread
    cases hread
  · have hover := over_slotTick env cfg (l := d.system.coordinator.slot tid) (hk tid) hs hlate
      (replies'.filter fun r => r.taskId = tid)
    rw [hrun, hslot tid]
    exact ⟨hover.gone, hover.served⟩

/-- A tick without replies, after the deadline. -/
def lectureLate : Action := .tick (.entries []) 1000000001

theorem tasks_served_lecture :
    (next Env.validating {} (lectureAsked Env.validating).coordinator lectureLate).tasks.get? "t1" = none ∧
    ∃ artifact, getTaskResult
      ((next Env.validating {} (lectureAsked Env.validating).coordinator lectureLate).outside "t1").row =
        .ok artifact := by
  have hstarted : ((lectureAsked Env.validating).coordinator.tasks.get? "t1").map (·.startedAt) = some 0 := by
    decide +kernel
  obtain ⟨s, hs, hstart⟩ := Option.map_eq_some_iff.mp hstarted
  have hr : (deployment (Workers.crew.Informed Unit) (fun _ => True) Env.validating {}).Reachable
      ⟨lectureAsked Env.validating, {}⟩ := reachable_lectureAsked trivial
  have he : Deployment.Enabled (Workers.crew.Informed Unit) (fun _ => True) Env.validating
      ⟨lectureAsked Env.validating, {}⟩ ⟨.coordinator lectureLate, []⟩ := by
    refine ⟨⟨?_, ?_⟩, List.nil_subset _⟩
    · rintro replies hread tid
      obtain rfl : [] = replies := Except.ok.inj hread
      trivial
    · rintro ds now hds d hd
      cases hds
      cases hd
  have hread : ((readInbox (.entries [])).run (lectureAsked Env.validating).coordinator.mailbox).1 = .ok [] := rfl
  obtain ⟨hgone, hserved⟩ := tasks_served Workers.crew Unit
    (faithful_ofDumps : Env.validating.validators.Faithful) hr he hread hs (by rw [hstart]; decide +kernel)
  exact ⟨hgone, hserved.resolve_left (not_raisedSince (by decide +kernel))⟩

end MasResearch.L3
