import MasResearch.L2Dispatch.Moves
import MasResearch.L2Dispatch.Coordinator

/-!
# What the coordinator's methods do to one slot

`Routed` lists what `_route_reply` does to a `TaskState`: it ignores the reply,
takes a refusal, or takes a result. `SlotStep` lists what a slot goes through
outside of routing: a `Move` of `_advance`, the start of a finalization, an event
nobody reads back, and leaving `_tasks`.

* `run_routeReply`: on a well-formed state routing never raises.
* `processTask_spec`: one round of the loop of `_tick` never raises, is a
  sequence of `SlotStep`s, and leaves the task unregistered or `Waiting`.
* `enrol_spec`: so is the registration by `submit` or `_resume`.
-/
namespace MasResearch.L2

open MasResearch.L1 Relation TaskState

/-! ## Routing -/

/-- `_route_reply` on a state, with the persist jobs it queues. -/
inductive Routed (env : Env) (now : ℚ) (reply : Message) (s : TaskState) : List Job → TaskState → Prop
  | ignored (h : ∀ sid, reply.subtaskId = some sid → sid ∉ s.pending) : Routed env now reply s [] s
  | refused {sid : String} (hsid : reply.subtaskId = some sid) (hp : sid ∈ s.pending)
      (hr : reply.performative = .refuse) :
      Routed env now reply s [] ((s.countMessage.dropDeadline sid).retryOrFail sid (refuseReason env reply) now)
  | informed {sid : String} {sub : Subtask} (hsid : reply.subtaskId = some sid) (hp : sid ∈ s.pending)
      (hr : reply.performative ≠ .refuse) (hg : s.plan.get? sid = some sub) :
      Routed env now reply s [⟨s.task.id, sub.operation, reply.content⟩]
        ((s.countMessage.dropDeadline sid).inform sid reply.content now)

section

variable {env : Env} {now : ℚ} {reply : Message}

theorem run_routeReply (env : Env) (now : ℚ) (reply : Message) {s : TaskState} (h : s.Wf) (o : Outside) :
    ∃ jobs s', (routeReply env reply now).run ⟨s, o⟩ = (.ok jobs, ⟨s', o⟩) ∧ Routed env now reply s jobs s' := by
  simp only [routeReply, Exec.run_bind, Exec.run_get]
  cases hsid : reply.subtaskId with
  | none => exact ⟨[], s, rfl, .ignored fun sid he => by rw [hsid] at he; cases he⟩
  | some sid =>
    by_cases hp : sid ∈ s.pending
    case neg =>
      refine ⟨[], s, ?_, .ignored fun k he => by rw [hsid] at he; cases he; exact hp⟩
      simp only [if_pos hp, Exec.run_pure]
    obtain ⟨sub, -, -, hg⟩ := h.get? hp
    by_cases hr : reply.performative = .refuse
    · refine ⟨[], _, ?_, .refused hsid hp hr⟩
      have hg' : (Ctx.mk (s.countMessage.dropDeadline sid) o).state.plan.get? sid = some sub := hg
      simp only [hp, not_true_eq_false, if_false, if_pos hr, modifyState, Exec.run_bind, Exec.run_modify,
        Ctx.update, run_scheduleRetryOrFail hg', Exec.run_pure]
    · refine ⟨_, _, ?_, .informed hsid hp hr hg⟩
      have hg' : (Ctx.mk ((s.countMessage.dropDeadline sid).inform sid reply.content now) o).state.plan.get?
        sid = some sub := hg
      simp only [hp, not_true_eq_false, if_false, if_neg hr, modifyState, Exec.run_bind, Exec.run_modify,
        Ctx.update, run_planGet hg', Exec.run_pure]

theorem Wf.routed {s s' : TaskState} {jobs : List Job} (h : s.Wf) (hr : Routed env now reply s jobs s') :
    s'.Wf := by
  cases hr with
  | ignored => exact h
  | refused _ hp _ => exact h.countMessage.retried hp _ _
  | informed _ hp _ _ => exact h.informed hp _ _

/-- Routing keeps the task, the plan and the start time. -/
theorem Routed.frame {s s' : TaskState} {jobs : List Job} (hr : Routed env now reply s jobs s') :
    s'.task = s.task ∧ s'.plan = s.plan ∧ s'.startedAt = s.startedAt := by
  cases hr with
  | ignored => exact ⟨rfl, rfl, rfl⟩
  | refused => refine ⟨?_, ?_, ?_⟩ <;> simp only [retryOrFail] <;> split <;> rfl
  | informed => exact ⟨rfl, rfl, rfl⟩

end

/-! ## Steps of a slot -/

/-- A slot without the gauge. -/
abbrev View := Option TaskState × Outside

def Slot.view (l : Slot) : View := (l.state, l.outside)

/-- When a state may be finalized. -/
def Finalizable (cfg : Config) (now : ℚ) (s : TaskState) : Cause → Prop
  | .resolved => s.pending = ∅
  | .deadline => Settled now s ∧ cfg.globalDeadlineSec < now - s.startedAt

/-- A store call, committed or not, or a request that raised; the row may change with it. -/
def Recorded (o o' : Outside) : Prop := ∃ e : Event, e.outcome = true ∧ o'.history = e :: o.history

inductive SlotStep (env : Env) (cfg : Config) (now : ℚ) : View → View → Prop
  | move {s : TaskState} {o : Outside} {c : Ctx} (hm : Move env cfg now ⟨s, o⟩ c) :
      SlotStep env cfg now (some s, o) (some c.state, c.outside)
  | finalizing {s : TaskState} {o : Outside} (cause : Cause) (hf : Finalizable cfg now s cause) :
      SlotStep env cfg now (some s, o)
        (some s, o.note (.finalizing cause (determineFinalStatus s.plan s.results) s))
  | recorded {st : Option TaskState} {o o' : Outside} (h : Recorded o o') : SlotStep env cfg now (st, o) (st, o')
  | closed {s : TaskState} {o : Outside} : SlotStep env cfg now (some s, o) (none, o)

/-- What a registered task looks like after a completed tick. -/
structure Waiting (cfg : Config) (now : ℚ) (s : TaskState) : Prop where
  wf : s.Wf
  settled : Settled now s
  pending : s.pending.Nonempty
  young : now - s.startedAt ≤ cfg.globalDeadlineSec

section

variable {env : Env} {cfg : Config} {now : ℚ}

theorem recorded_setStatus (env : Env) (status : TaskStatus) (o : Outside) :
    ∃ r o', (setStatus env status).run o = (r, o') ∧ Recorded o o' := by
  simp only [setStatus, Exec.run_bind, Exec.run_get]
  split
  · exact ⟨_, _, rfl, .statusFailed status, rfl, rfl⟩
  · cases o.row with
    | none => exact ⟨_, _, rfl, .statusFailed status, rfl, rfl⟩
    | some row => exact ⟨_, _, rfl, .statusSet status, rfl, rfl⟩

theorem recorded_saveArtifact (env : Env) (a : ResultArtifact) (o : Outside) :
    ∃ r o', (saveArtifact env a).run o = (r, o') ∧ Recorded o o' := by
  simp only [saveArtifact, Exec.run_bind, Exec.run_get]
  split
  · exact ⟨_, _, rfl, .artifactFailed, rfl, rfl⟩
  · cases o.row with
    | none => exact ⟨_, _, rfl, .artifactFailed, rfl, rfl⟩
    | some row => exact ⟨_, _, rfl, .artifactSaved a, rfl, rfl⟩

theorem recorded_saveResult (env : Env) (op : Operation) (content : Content) (o : Outside) :
    ∃ r o', (saveResult env op content).run o = (r, o') ∧ Recorded o o' := by
  simp only [saveResult, Exec.run_bind, Exec.run_get]
  split
  · exact ⟨_, _, rfl, .resultFailed op, rfl, rfl⟩
  · exact ⟨_, _, rfl, .resultSaved op content, rfl, rfl⟩

/-- `_finalize` announces the status and results, then makes store calls; it
leaves the state alone. -/
theorem run_finalize (env : Env) (cause : Cause) (now : ℚ) (s : TaskState) (o : Outside) :
    ∃ r o', (finalize env cause now).run ⟨s, o⟩ = (r, ⟨s, o'⟩) ∧ ReflTransGen Recorded
      (o.note (.finalizing cause (determineFinalStatus s.plan s.results) s)) o' := by
  simp only [finalize, noteEvent, outward, Exec.run_bind, Exec.run_get, Exec.run_modify, Ctx.note]
  cases assembleArtifact env.validators s (determineFinalStatus s.plan s.results) now with
  | error e => exact ⟨_, _, rfl, .refl⟩
  | ok a =>
    obtain ⟨r1, o1, h1, q1⟩ := recorded_saveArtifact env a
      (o.note (.finalizing cause (determineFinalStatus s.plan s.results) s))
    simp only [Exec.run_bind, Exec.run_zoom, h1]
    cases r1 with
    | error e => exact ⟨_, _, rfl, .single q1⟩
    | ok _ =>
      obtain ⟨r2, o2, h2, q2⟩ := recorded_setStatus env (determineFinalStatus s.plan s.results) o1
      dsimp only
      simp only [h2]
      exact ⟨_, _, rfl, .tail (.single q1) q2⟩

theorem recorded_star {st : Option TaskState} {o o' : Outside} (h : ReflTransGen Recorded o o') :
    ReflTransGen (SlotStep env cfg now) (st, o) (st, o') := by
  induction h with
  | refl => exact .refl
  | tail _ hs ih => exact ih.tail (.recorded hs)

theorem finalize_star {s : TaskState} {o o' : Outside} {cause : Cause} (hf : Finalizable cfg now s cause)
    (h : ReflTransGen Recorded
      (o.note (.finalizing cause (determineFinalStatus s.plan s.results) s)) o') :
    ReflTransGen (SlotStep env cfg now) (some s, o) (some s, o') :=
  .head (.finalizing cause hf) (recorded_star h)

theorem moves_star {s : TaskState} {o : Outside} {c : Ctx}
    (h : ReflTransGen (Move env cfg now) ⟨s, o⟩ c) :
    ReflTransGen (SlotStep env cfg now) (some s, o) (some c.state, c.outside) := by
  induction h with
  | refl => exact .refl
  | tail _ hs ih => exact ih.tail (.move hs)

/-- A task that is still registered can be closed. -/
theorem closed_star {v : View} {l : Slot} {s : TaskState} (h : ReflTransGen (SlotStep env cfg now) v l.view)
    (hs : l.state = some s) : ReflTransGen (SlotStep env cfg now) v (none, l.outside) := by
  have hview : l.view = (some s, l.outside) := by rw [Slot.view, hs]
  rw [hview] at h
  exact h.tail .closed

/-- `_finalize`, then removal: the task is gone unless the finalization raised. -/
theorem run_finalizeRegistered (env : Env) {s : TaskState} (o : Outside) (g : Int) {cause : Cause}
    (st : Option TaskState) (hf : Finalizable cfg now s cause) :
    ∃ r l', (finalizeRegistered env cause s now).run ⟨st, o, g⟩ = (r, l') ∧
      ReflTransGen (SlotStep env cfg now) (some s, o) l'.view ∧
      ((r = .ok () ∧ l'.state = none ∧ l'.inflight = g - 1) ∨
        (∃ e, r = .error e) ∧ l'.state = some s ∧ l'.inflight = g) := by
  obtain ⟨r, o', h, q⟩ := run_finalize env cause now s o
  simp only [finalizeRegistered, onState, Exec.run_bind, Exec.run_zoom, h]
  cases r with
  | error e => exact ⟨_, _, rfl, finalize_star hf q, .inr ⟨⟨e, rfl⟩, rfl, rfl⟩⟩
  | ok _ => exact ⟨_, _, rfl, (finalize_star hf q).tail .closed, .inl ⟨rfl, rfl, rfl⟩⟩

/-- `submit` fails to write the status, or goes on as `_resume` does. -/
theorem run_submit (env : Env) (cfg : Config) (task : Task) (now : ℚ) (st : Option TaskState) (o : Outside) (g : Int) :
    ∃ o', Recorded o o' ∧
      ((∃ e, (submit env cfg task now).run ⟨st, o, g⟩ = (.error e, ⟨st, o', g⟩)) ∨
        (submit env cfg task now).run ⟨st, o, g⟩ =
          (enrol env cfg .submit (TaskState.submitted task now) now).run ⟨st, o', g⟩) := by
  obtain ⟨r, o', h1, hq⟩ := recorded_setStatus env .running o
  have hst : (storeCall (setStatus env .running)).run ⟨st, o, g⟩ = (r, ⟨st, o', g⟩) := by
    simp only [storeCall, Exec.run_zoom, h1]
  refine ⟨o', hq, ?_⟩
  cases r with
  | error e => exact .inl ⟨e, Exec.run_bind_error hst⟩
  | ok _ => exact .inr (Exec.run_bind_ok hst)

/-- `_abandon` never raises and leaves the task unregistered. -/
theorem run_abandon (env : Env) (st : Option TaskState) (o : Outside) (g : Int) :
    ∃ o', (abandon env).run ⟨st, o, g⟩ = (.ok (), ⟨none, o', if st.isSome then g - 1 else g⟩) ∧
      Recorded o o' := by
  obtain ⟨r, o', h, q⟩ := recorded_setStatus env .failed o
  refine ⟨o', ?_, q⟩
  cases st <;> cases r <;>
    simp [abandon, storeCall, Slot.pop, Exec.run_bind, Exec.run_attempt, h]

theorem Fault.recorded {e : PyError} {c c' : Ctx} (h : Fault env now e c c') :
    Recorded c.outside c'.outside := by
  cases h with
  | ready => exact ⟨_, rfl, rfl⟩
  | again => exact ⟨_, rfl, rfl⟩

theorem run_onState {α : Type} {x : Dispatch α} {s : TaskState} {st : Option TaskState} {o : Outside} {g : Int}
    {r : Except PyError α} {c : Ctx} (h : x.run ⟨s, o⟩ = (r, c)) :
    (onState s x).run ⟨st, o, g⟩ = (r, ⟨some c.state, c.outside, g⟩) := by
  simp only [onState, Exec.run_zoom, h]

/-- `_maybe_finalize` on a registered task. -/
theorem run_maybeFinalize (s : TaskState) (o : Outside) (g : Int) :
    (maybeFinalize env now).run ⟨some s, o, g⟩ =
      if s.pending = ∅ then (finalizeRegistered env .resolved s now).run ⟨some s, o, g⟩
      else (.ok (), ⟨some s, o, g⟩) := by
  simp only [maybeFinalize, Exec.run_bind, Exec.run_get]
  split <;> rfl

/-- What the `try` block of `_tick` comes to on a registered task: the task is
finalized and gone, or waits for replies and timers, or something raised. -/
theorem run_dispatchTask (env : Env) (cfg : Config) (now : ℚ) {s : TaskState} (h : s.Wf) (o : Outside)
    (g : Int) :
    ∃ r l', (dispatchTask env cfg now).run ⟨some s, o, g⟩ = (r, l') ∧
      ((r = .ok () ∧ ReflTransGen (SlotStep env cfg now) (some s, o) l'.view ∧
          l'.state = none ∧ l'.inflight = g - 1) ∨
        (r = .ok () ∧ ReflTransGen (SlotStep env cfg now) (some s, o) l'.view ∧
          ∃ s', l'.state = some s' ∧ Waiting cfg now s' ∧ l'.inflight = g) ∨
        (∃ e, r = .error e) ∧ l'.state.isSome ∧ l'.inflight = g ∧
          ReflTransGen (SlotStep env cfg now) (some s, o) (none, l'.outside)) := by
  simp only [dispatchTask, Exec.run_bind, Exec.run_get]
  rcases advance_run env cfg now ⟨s, o⟩ h with
    ⟨c, h1, hm, hset⟩ | ⟨e, c, m, h1, hm, hf⟩
  case inr =>
    rw [run_onState h1]
    exact ⟨_, _, rfl, .inr (.inr ⟨⟨e, rfl⟩, rfl, rfl,
      ((moves_star hm).tail (.recorded hf.recorded)).tail .closed⟩)⟩
  rw [run_onState h1]
  dsimp only
  rw [run_maybeFinalize]
  by_cases hp : c.state.pending = ∅
  · rw [if_pos hp]
    obtain ⟨r, l', h2, hs, hc⟩ := run_finalizeRegistered env c.outside g (some c.state)
      (show Finalizable cfg now c.state .resolved from hp)
    rw [h2]
    have hstar := (moves_star hm).trans hs
    rcases hc with ⟨rfl, hn, hg⟩ | ⟨⟨e, rfl⟩, hn, hg⟩
    · simp only [hn]
      exact ⟨_, _, rfl, .inl ⟨rfl, hstar, hn, hg⟩⟩
    · exact ⟨_, _, rfl, .inr (.inr ⟨⟨e, rfl⟩, by rw [hn]; rfl, hg, closed_star hstar hn⟩)⟩
  rw [if_neg hp]
  dsimp only
  by_cases hd : cfg.globalDeadlineSec < now - c.state.startedAt
  · rw [if_pos hd, deadlineFinalize]
    obtain ⟨r, l', h2, hs, hc⟩ := run_finalizeRegistered env c.outside g (some c.state)
      (show Finalizable cfg now c.state .deadline from ⟨hset, hd⟩)
    rw [h2]
    have hstar := (moves_star hm).trans hs
    rcases hc with ⟨rfl, hn, hg⟩ | ⟨⟨e, rfl⟩, hn, hg⟩
    · exact ⟨_, _, rfl, .inl ⟨rfl, hstar, hn, hg⟩⟩
    · exact ⟨_, _, rfl, .inr (.inr ⟨⟨e, rfl⟩, by rw [hn]; rfl, hg, closed_star hstar hn⟩)⟩
  · rw [if_neg hd]
    exact ⟨_, _, rfl, .inr (.inl ⟨rfl, moves_star hm, c.state, rfl,
      ⟨Exec.stable_star wf_stable hm h, hset, Finset.nonempty_iff_ne_empty.mpr hp, not_lt.mp hd⟩, rfl⟩)⟩

/-- **One task of a tick.** It never raises; the task is unregistered afterwards
or waits for a reply or a timer. -/
theorem processTask_spec (env : Env) (cfg : Config) (now : ℚ) {s : TaskState} (h : s.Wf) (o : Outside)
    (g : Int) :
    ∃ l', (processTask env cfg now).run ⟨some s, o, g⟩ = (.ok (), l') ∧
      ReflTransGen (SlotStep env cfg now) (some s, o) l'.view ∧
      l'.inflight = (if l'.state.isSome then g else g - 1) ∧
      ∀ s', l'.state = some s' → Waiting cfg now s' := by
  obtain ⟨r, l', h1, hc⟩ := run_dispatchTask env cfg now h o g
  rw [processTask, Exec.run_attempt, h1]
  rcases hc with ⟨rfl, hs, hn, hg⟩ | ⟨rfl, hs, s', hn, hw, hg⟩ | ⟨⟨e, rfl⟩, hn, hg, hs⟩
  · exact ⟨l', rfl, hs, by rw [hn]; exact hg, by rw [hn]; intro _ he; cases he⟩
  · refine ⟨l', rfl, hs, by rw [hn]; exact hg, ?_⟩
    rw [hn]; intro _ he; cases he; exact hw
  · obtain ⟨st, o1, g1⟩ := l'
    obtain ⟨o2, h2, hq⟩ := run_abandon env st o1 g1
    refine ⟨_, h2, hs.tail (.recorded hq), ?_, fun _ he => by cases he⟩
    have hn' : st.isSome = true := hn
    have hg' : g1 = g := hg
    simp [hn', hg']

/-- Without a registered task there is nothing to do. -/
theorem run_processTask_none (o : Outside) (g : Int) :
    (processTask env cfg now).run ⟨none, o, g⟩ = (.ok (), ⟨none, o, g⟩) := rfl

/-! ## Registration -/

/-- No back-off is over: nothing to request again at `now`. -/
def NothingDue (now : ℚ) (s : TaskState) : Prop := ∀ sid t, s.retryAt.get? sid = some t → now < t

theorem backoff_pos {i : Nat} (h : i < retryMax) : 0 < backoffSeconds.getD i 0 := by
  match i, h with
  | 0, _ => decide +kernel
  | 1, _ => decide +kernel

theorem NothingDue.move {c c' : Ctx} (h : NothingDue now c.state) (hm : Move env cfg now c c') :
    NothingDue now c'.state := by
  cases hm with
  | ready => exact h
  | skip => intro k t ht; exact h k t (by grind [Ctx.update, TaskState.fail])
  | again hr hle _ => exact absurd hle (not_le.mpr (h _ _ hr))
  | @expire sid d hd _ =>
    intro k t ht
    simp only [Ctx.update, retryOrFail] at ht
    split at ht
    · exact h k t (by grind [TaskState.fail, dropDeadline])
    · rename_i hlt
      have hb := backoff_pos (i := c.state.retries sid) (not_le.mp hlt)
      simp only [scheduleRetry, countRetry, dropDeadline, Dict.get?_set] at ht
      split at ht
      · cases ht
        have e : (c.state.dropDeadline sid).retries sid = c.state.retries sid := rfl
        exact lt_add_of_pos_right now hb
      · exact h k t ht

/-- **Registration.** From a well-formed state without back-offs, `submit` and
`_resume` register it and advance it, or finalize it when nothing is pending. -/
theorem enrol_spec (env : Env) (cfg : Config) {s : TaskState} (h : s.Wf) (hdue : NothingDue now s)
    (who : Registrar) (o : Outside) (g : Int) :
    ∃ r l', (enrol env cfg who s now).run ⟨none, o, g⟩ = (r, l') ∧
      l'.inflight = (if l'.state.isSome then g + 1 else g) ∧
      (s.pending ≠ ∅ ∧ ReflTransGen (SlotStep env cfg now) (some s, o.note (.registered who)) l'.view ∨
       s.pending = ∅ ∧ l'.state = none ∧ ReflTransGen Recorded
         (o.note (.finalizing .resolved (determineFinalStatus s.plan s.results) s)) l'.outside) := by
  rw [enrol]
  by_cases hp : s.pending = ∅
  · obtain ⟨r, o', h1, hq⟩ := run_finalize env .resolved now s o
    rw [if_pos hp, onDetached, Exec.run_zoom, h1]
    exact ⟨_, _, rfl, by simp, .inr ⟨hp, rfl, hq⟩⟩
  rw [if_neg hp]
  simp only [Exec.run_bind, Exec.run_modify, Slot.register]
  rcases advance_run env cfg now ⟨s, o.note (.registered who)⟩ h with
    ⟨c, h1, hm, -⟩ | ⟨e, c, m, h1, hm, hf⟩
  · rw [run_onState h1]
    dsimp only
    rw [run_maybeFinalize]
    split
    · rename_i hp'
      obtain ⟨r, l', h2, hs, hc⟩ := run_finalizeRegistered env c.outside (g + 1) (some c.state)
        (show Finalizable cfg now c.state .resolved from hp')
      refine ⟨r, l', h2, ?_, .inl ⟨hp, (moves_star hm).trans hs⟩⟩
      rcases hc with ⟨-, hn, hg⟩ | ⟨-, hn, hg⟩ <;> simp [hn, hg]
    · exact ⟨_, _, rfl, by simp, .inl ⟨hp, moves_star hm⟩⟩
  · rw [run_onState h1]
    refine ⟨_, _, rfl, by simp, .inl ⟨hp, ?_⟩⟩
    -- only a first request can raise here: no back-off is over
    have hdue' : NothingDue now m.state := Exec.stable_star (P := fun c : Ctx => NothingDue now c.state)
      (fun _ _ => NothingDue.move) hm hdue
    cases hf with
    | ready => exact (moves_star hm).tail (.recorded ⟨_, rfl, rfl⟩)
    | again hr hle _ _ => exact absurd hle (not_le.mpr (hdue' _ _ hr))

end

end MasResearch.L2
