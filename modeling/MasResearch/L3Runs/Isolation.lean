import MasResearch.L3Runs.Timers

/-!
# Tasks do not disturb each other

All tasks share one loop, one lock, one list of replies and one list of persist jobs,
and replies are routed outside the per-task `try` block. Still a tick treats each task
as if it were alone: what it makes of the task's `TaskState` and of its part of the
world (requests, status, artifact and result writes) is what it makes of them when no
other task is registered and no other task's reply is delivered.

Nothing is assumed of the other tasks. Their replies are any, and so are their failing
calls: the two ticks may run in two environments, which need to agree (`AgreesFrom`)
only on the calls made for the one task.
-/
namespace MasResearch.L3

open MasResearch.L1 MasResearch.L2 Relation

/-! ## Two environments -/

/-- The environments answer alike whatever is done for a task after `h`. -/
structure AgreesFrom (h : List Event) (env env' : Env) : Prop where
  raises : ∀ hist call, h <:+ hist → env.raises hist call = env'.raises hist call
  uuid : ∀ hist, h <:+ hist → env.uuid hist = env'.uuid hist
  utcnow : ∀ hist, h <:+ hist → env.utcnow hist = env'.utcnow hist
  repr : env.repr = env'.repr
  validators : env.validators = env'.validators

/-- What was done before `h` stays done. -/
def After (h : List Event) (o : Outside) : Prop := h <:+ o.history

def CtxAfter (h : List Event) (c : Ctx) : Prop := After h c.outside

def SlotAfter (h : List Event) (l : Slot) : Prop := After h l.outside

theorem After.note {h : List Event} {o : Outside} (ho : After h o) (e : Event) : After h (o.note e) :=
  ho.trans (List.suffix_cons e o.history)

section

variable {h : List Event}

theorem maintains_modifyState (f : TaskState → TaskState) : Exec.Maintains (CtxAfter h) (modifyState f) :=
  fun _ hc => hc

theorem maintains_noteEvent (e : Event) : Exec.Maintains (CtxAfter h) (noteEvent e) :=
  fun _ hc => After.note hc e

theorem maintains_raise {α : Type} (e : PyError) : Exec.Maintains (CtxAfter h) (Exec.raise e : Dispatch α) :=
  fun _ hc => hc

theorem maintains_planGet (sid : String) : Exec.Maintains (CtxAfter h) (planGet sid) := by
  refine Exec.Maintains.get_bind fun c _ => ?_
  cases c.state.plan.get? sid with
  | some sub => exact Exec.Maintains.pure sub
  | none => exact maintains_raise _

theorem maintains_failSubtask (sid reason : String) (now : ℚ) :
    Exec.Maintains (CtxAfter h) (failSubtask sid reason now) :=
  (maintains_modifyState _).bind fun _ => (maintains_planGet sid).bind fun _ => Exec.Maintains.pure ()

theorem maintains_backoffAt (i : Nat) : Exec.Maintains (CtxAfter h) (backoffAt i) := by
  unfold backoffAt
  cases backoffSeconds[i]? with
  | some b => exact Exec.Maintains.pure b
  | none => exact maintains_raise _

theorem maintains_scheduleRetryOrFail (sid reason : String) (now : ℚ) :
    Exec.Maintains (CtxAfter h) (scheduleRetryOrFail sid reason now) := by
  refine Exec.Maintains.get_bind fun c _ => ?_
  split
  · exact maintains_failSubtask sid reason now
  · refine (maintains_modifyState _).bind fun _ => Exec.Maintains.get_bind fun c' _ => ?_
    exact (maintains_backoffAt _).bind fun _ => (maintains_modifyState _).bind fun _ =>
      (maintains_planGet sid).bind fun _ => Exec.Maintains.pure ()

theorem maintains_expireTimeouts (now : ℚ) : Exec.Maintains (CtxAfter h) (expireTimeouts now) := by
  refine Exec.Maintains.get_bind fun c _ => ?_
  refine Exec.Maintains.anyChanged fun sid _ => Exec.Maintains.get_bind fun c' _ => ?_
  cases c'.state.deadlines.get? sid with
  | none => exact maintains_raise _
  | some deadline =>
    dsimp only
    split
    · exact (maintains_modifyState _).bind fun _ => (maintains_scheduleRetryOrFail sid _ now).bind fun _ =>
        Exec.Maintains.pure true
    · exact Exec.Maintains.pure false

theorem maintains_note_raise (e : Event) (error : PyError) :
    Exec.Maintains (After h) (do Exec.modify (Outside.note · e); Exec.raise error : Exec Outside PyError Unit) :=
  Exec.Maintains.bind (fun _ ho => ho.note _) fun _ _ ho => ho

theorem same_onState {α : Type} {x y : Dispatch α} (hxy : Exec.Same (CtxAfter h) x y) (s : TaskState) :
    Exec.Same (SlotAfter h) (onState s x) (onState s y) := hxy.zoom (fun _ hl => hl) fun _ _ hc => hc

theorem same_storeCall {x y : Exec Outside PyError Unit} (hxy : Exec.Same (After h) x y) :
    Exec.Same (SlotAfter h) (storeCall x) (storeCall y) := hxy.zoom (fun _ hl => hl) fun _ _ ho => ho

end

/-! ## The calls of a task -/

section

variable {h : List Event} {env env' : Env} (ag : AgreesFrom h env env')
include ag

/-- A call that may raise, with `fails` for what it does then. -/
theorem same_call (call : Call) {fails : Exec Outside PyError Unit} {returns : Outside → Exec Outside PyError Unit}
    (hfails : Exec.Maintains (After h) fails) (hreturns : ∀ o, Exec.Maintains (After h) (returns o)) :
    Exec.Same (After h) (Exec.get >>= fun o => if env.raises o.history call then fails else returns o)
      (Exec.get >>= fun o => if env'.raises o.history call then fails else returns o) := by
  refine Exec.Same.get_bind fun o ho => ?_
  rw [ag.raises _ _ ho]
  apply Exec.Maintains.same
  split
  · exact hfails
  · exact hreturns o

theorem same_busPublish (channel : String) (sub : Subtask) (results : Results) (request : Message) (now : ℚ) :
    Exec.Same (After h) (busPublish env channel sub results request now)
      (busPublish env' channel sub results request now) :=
  same_call ag _ (maintains_note_raise _ _) fun _ _ ho => ho.note _

theorem same_setStatus (status : TaskStatus) :
    Exec.Same (After h) (setStatus env status) (setStatus env' status) := by
  refine same_call ag _ (maintains_note_raise _ _) fun o => ?_
  cases o.row with
  | none => exact maintains_note_raise _ _
  | some row => exact fun o ho => ho.note _

theorem same_saveArtifact (a : ResultArtifact) :
    Exec.Same (After h) (saveArtifact env a) (saveArtifact env' a) := by
  refine same_call ag _ (maintains_note_raise _ _) fun o => ?_
  cases o.row with
  | none => exact maintains_note_raise _ _
  | some row => exact fun o ho => ho.note _

theorem same_saveResult (op : Operation) (content : Content) :
    Exec.Same (After h) (saveResult env op content) (saveResult env' op content) :=
  same_call ag _ (maintains_note_raise _ _) fun _ _ ho => ho.note _

theorem same_publish (cfg : Config) (sub : Subtask) (now : ℚ) :
    Exec.Same (CtxAfter h) (publish env cfg sub now) (publish env' cfg sub now) := by
  refine Exec.Same.get_bind fun c hc => ?_
  have hreq : c.request env sub = c.request env' sub := by
    simp only [Ctx.request, ag.uuid _ hc, ag.utcnow _ hc]
  rw [hreq]
  refine Exec.Same.bind ?_ fun _ => (maintains_modifyState _).same
  exact (same_busPublish ag _ _ _ _ _).zoom (fun _ hc => hc) fun _ _ ho => ho

/-! ## The dispatch methods -/

theorem same_advanceSubtask (cfg : Config) (now : ℚ) (sub : Subtask) :
    Exec.Same (CtxAfter h) (advanceSubtask env cfg now sub) (advanceSubtask env' cfg now sub) := by
  refine Exec.Same.get_bind fun c _ => ?_
  dsimp only
  split
  · exact (Exec.Maintains.pure false).same
  split
  · exact (Exec.Maintains.pure false).same
  split
  · exact (maintains_failSubtask _ _ now).same.bind fun _ => (Exec.Maintains.pure true).same
  split
  · exact (maintains_failSubtask _ _ now).same.bind fun _ => (Exec.Maintains.pure true).same
  · exact (same_publish ag cfg sub now).bind fun _ => (Exec.Maintains.pure true).same

theorem same_republish (cfg : Config) (now : ℚ) (sid : String) :
    Exec.Same (CtxAfter h) (republish env cfg now sid) (republish env' cfg now sid) := by
  refine Exec.Same.get_bind fun c _ => ?_
  cases c.state.retryAt.get? sid with
  | none => exact (maintains_raise _).same
  | some due =>
    dsimp only
    split
    · exact (maintains_modifyState _).same.bind fun _ => (maintains_planGet sid).same.bind fun sub =>
        (same_publish ag cfg sub now).bind fun _ => (Exec.Maintains.pure true).same
    · exact (Exec.Maintains.pure false).same

theorem same_advanceRound (cfg : Config) (now : ℚ) :
    Exec.Same (CtxAfter h) (advanceRound env cfg now) (advanceRound env' cfg now) := by
  refine Exec.Same.bind ?_ fun _ => Exec.Same.bind ?_ fun _ => (Exec.Maintains.pure _).same
  · exact Exec.Same.get_bind fun c _ => Exec.Same.anyChanged (same_advanceSubtask ag cfg now) _
  · refine (maintains_expireTimeouts now).same.bind fun _ => Exec.Same.bind ?_ fun _ => (Exec.Maintains.pure _).same
    exact Exec.Same.get_bind fun c _ => Exec.Same.anyChanged (same_republish ag cfg now) _

theorem same_advance (cfg : Config) (now : ℚ) :
    Exec.Same (CtxAfter h) (advance env cfg now) (advance env' cfg now) :=
  Exec.Same.get_bind fun _ _ => Exec.Same.whileChanged (same_advanceRound ag cfg now) .loops _

theorem same_finalize (cause : Cause) (now : ℚ) :
    Exec.Same (CtxAfter h) (finalize env cause now) (finalize env' cause now) := by
  refine Exec.Same.get_bind fun c _ => (maintains_noteEvent _).same.bind fun _ => ?_
  rw [ag.validators]
  cases assembleArtifact env'.validators c.state (determineFinalStatus c.state.plan c.state.results) now with
  | error e => exact (maintains_raise e).same
  | ok a =>
    exact ((same_saveArtifact ag a).zoom (fun _ hc => hc) fun _ _ ho => ho).bind fun _ =>
      (same_setStatus ag _).zoom (fun _ hc => hc) fun _ _ ho => ho

theorem same_routeReply (reply : Message) (now : ℚ) :
    Exec.Same (CtxAfter h) (routeReply env reply now) (routeReply env' reply now) := by
  have hreason : refuseReason env reply = refuseReason env' reply := by
    simp only [refuseReason, Env.str, ag.repr]
  unfold routeReply
  rw [hreason]
  refine (Exec.Maintains.get_bind fun c _ => ?_).same
  cases reply.subtaskId with
  | none => exact Exec.Maintains.pure _
  | some sid =>
    dsimp only
    split
    · exact Exec.Maintains.pure _
    refine (maintains_modifyState _).bind fun _ => (maintains_modifyState _).bind fun _ => ?_
    split
    · exact (maintains_scheduleRetryOrFail sid _ now).bind fun _ => Exec.Maintains.pure _
    · exact (maintains_modifyState _).bind fun _ => (maintains_planGet sid).bind fun _ => Exec.Maintains.pure _

/-! ## The slot of a task -/

theorem same_finalizeRegistered (cause : Cause) (s : TaskState) (now : ℚ) :
    Exec.Same (SlotAfter h) (finalizeRegistered env cause s now) (finalizeRegistered env' cause s now) :=
  (same_onState (same_finalize ag cause now) s).bind fun _ _ hl => ⟨rfl, hl⟩

theorem same_maybeFinalize (now : ℚ) : Exec.Same (SlotAfter h) (maybeFinalize env now) (maybeFinalize env' now) := by
  refine Exec.Same.get_bind fun l _ => ?_
  cases l.state with
  | none => exact (Exec.Maintains.pure ()).same
  | some s =>
    dsimp only
    split
    · exact same_finalizeRegistered ag .resolved s now
    · exact (Exec.Maintains.pure ()).same

theorem same_abandon : Exec.Same (SlotAfter h) (abandon env) (abandon env') := by
  refine Exec.Same.get_bind fun l _ => ?_
  have hcall : Exec.Same (SlotAfter h)
      (Exec.attempt (storeCall (setStatus env .failed)) fun _ => pure ())
      (Exec.attempt (storeCall (setStatus env' .failed)) fun _ => pure ()) :=
    (same_storeCall (same_setStatus ag .failed)).attempt fun _ => (Exec.Maintains.pure ()).same
  split
  · exact Exec.Same.bind (fun _ hl => ⟨rfl, hl⟩) fun _ => hcall
  · exact hcall

theorem same_dispatchTask (cfg : Config) (now : ℚ) :
    Exec.Same (SlotAfter h) (dispatchTask env cfg now) (dispatchTask env' cfg now) := by
  refine Exec.Same.get_bind fun l _ => ?_
  cases l.state with
  | none => exact (Exec.Maintains.pure ()).same
  | some s =>
    refine (same_onState (same_advance ag cfg now) s).bind fun _ => (same_maybeFinalize ag now).bind fun _ => ?_
    refine Exec.Same.get_bind fun l' _ => ?_
    cases l'.state with
    | none => exact (Exec.Maintains.pure ()).same
    | some s' =>
      dsimp only
      split
      · exact same_finalizeRegistered ag .deadline s' now
      · exact (Exec.Maintains.pure ()).same

theorem same_slotRoutes (now : ℚ) :
    ∀ replies, Exec.Same (SlotAfter h) (slotRoutes env now replies) (slotRoutes env' now replies)
  | [] => (Exec.Maintains.pure _).same
  | reply :: replies => by
    refine Exec.Same.bind ?_ fun _ => (same_slotRoutes now replies).bind fun _ => (Exec.Maintains.pure _).same
    refine Exec.Same.get_bind fun l _ => ?_
    cases l.state with
    | none => exact (Exec.Maintains.pure _).same
    | some s =>
      exact Exec.Same.bind (fun _ hl => ⟨rfl, hl.note _⟩) fun _ => same_onState (same_routeReply ag reply now) s

theorem same_persistAttempts (op : Operation) (content : Content) :
    ∀ n, Exec.Same (SlotAfter h) (persistAttempts env op content n) (persistAttempts env' op content n)
  | 0 => (Exec.Maintains.pure ()).same
  | n + 1 => (same_storeCall (same_saveResult ag op content)).attempt fun _ => same_persistAttempts op content n

/-- What a tick does for a task depends on the environment's answers for that task only. -/
theorem same_slotTick (cfg : Config) (replies : List Message) (now : ℚ) :
    Exec.Same (SlotAfter h) (slotTick env cfg replies now) (slotTick env' cfg replies now) := by
  refine (same_slotRoutes ag now replies).bind fun jobs => Exec.Same.bind ?_ fun _ => ?_
  · exact (same_dispatchTask ag cfg now).attempt fun _ => same_abandon ag
  · exact Exec.Same.forEach (fun job => same_persistAttempts ag job.operation job.content persistRetries) jobs

end

/-! ## A tick of one task alone -/

/-- The coordinator with no task but `tid` in `_tasks`. -/
def onlyTask (c : Coordinator) (tid : String) : Coordinator :=
  { c with tasks := c.tasks.filterKeys fun k => k = tid }

/-- A tick that delivers, of the replies it accepted, those of `tid` only. -/
def soloTick (env : Env) (cfg : Config) (batch : Batch) (now : ℚ) (tid : String) : CoordinatorM Unit := do
  let replies ← onMailbox (readInbox batch)
  deliver env cfg (replies.filter fun r => r.taskId = tid) now

section

variable {c : Coordinator} {tid : String}

theorem slot_onlyTask : (onlyTask c tid).slot tid = c.slot tid := by
  simp [Coordinator.slot, onlyTask]

theorem keyed_onlyTask (hk : Keyed c) : Keyed (onlyTask c tid) := by
  intro k s hs
  simp only [onlyTask, Dict.get?_filterKeys] at hs
  split at hs
  · exact hk k s hs
  · cases hs

/-- The slot of `tid` after the rest of a tick on which another coordinator agrees. -/
theorem deliver_isolated {env env' : Env} {d : Coordinator} (hk : Keyed c) (hd : Keyed d)
    (hslot : d.slot tid = c.slot tid) (ag : AgreesFrom (c.outside tid).history env env') (cfg : Config)
    (replies : List Message) (now : ℚ) :
    ∃ c' d', (deliver env cfg replies now).run c = (.ok (), c') ∧
      (deliver env' cfg (replies.filter fun r => r.taskId = tid) now).run d = (.ok (), d') ∧
      c'.slot tid = d'.slot tid := by
  obtain ⟨c', hc, -, -, hcs⟩ := deliver_slot env cfg now replies c hk
  obtain ⟨d', hd, -, -, hds⟩ := deliver_slot env' cfg now (replies.filter fun r => r.taskId = tid) d hd
  refine ⟨c', d', hc, hd, ?_⟩
  have hsame := (same_slotTick ag cfg (replies.filter fun r => r.taskId = tid) now (c.slot tid)
    (List.suffix_refl (c.outside tid).history)).1
  rw [hcs tid, hds tid, hslot, hsame, List.filter_filter]
  simp only [Bool.and_self]

/-- **Task isolation.** Of any registered tasks, a tick leaves each as the tick does
in which the other tasks are not registered and their replies are not delivered;
the environment may answer the other tasks' calls in any way. The same holds of a tick
whose batch brings the task's replies only. -/
theorem tick_isolated (hk : Keyed c) {env env' : Env} (ag : AgreesFrom (c.outside tid).history env env')
    (cfg : Config) (batch : Batch) (now : ℚ) :
    ∃ r c' d, (tick env cfg batch now).run c = (r, c') ∧
      (soloTick env' cfg batch now tid).run (onlyTask c tid) = (r, d) ∧ c'.slot tid = d.slot tid ∧
      r = ((readInbox batch).run c.mailbox).1.map (fun _ => ()) ∧
      ∀ batch' m, ((readInbox batch').run m).1 =
          ((readInbox batch).run c.mailbox).1.map (fun replies => replies.filter fun r => r.taskId = tid) →
        ∃ d', (tick env' cfg batch' now).run { onlyTask c tid with mailbox := m } = (r, d') ∧
          c'.slot tid = d'.slot tid := by
  have hon : ∀ (b : Batch) (m : Mailbox) (d : Coordinator), (onMailbox (readInbox b)).run { d with mailbox := m } =
      (((readInbox b).run m).1, { d with mailbox := ((readInbox b).run m).2 }) := fun _ _ _ => rfl
  cases hread : (readInbox batch).run c.mailbox with
  | mk r m' =>
    have hc := hon batch c.mailbox c
    have hd := hon batch c.mailbox (onlyTask c tid)
    rw [hread] at hc hd
    cases r with
    | error e =>
      refine ⟨.error e, _, _, Exec.run_bind_error hc, Exec.run_bind_error hd, slot_onlyTask.symm, rfl, ?_⟩
      intro batch' m hb
      have hb' := hon batch' m (onlyTask c tid)
      rw [hb] at hb'
      exact ⟨_, Exec.run_bind_error hb', slot_onlyTask.symm⟩
    | ok replies =>
      have hrest : ∀ m : Mailbox, Keyed { onlyTask c tid with mailbox := m } := fun _ => keyed_onlyTask hk
      obtain ⟨c', d, h1, h2, h3⟩ := deliver_isolated (c := { c with mailbox := m' })
        (d := { onlyTask c tid with mailbox := m' }) hk (hrest _) slot_onlyTask ag cfg replies now
      refine ⟨.ok (), c', d, (Exec.run_bind_ok hc).trans h1, (Exec.run_bind_ok hd).trans h2, h3, rfl, ?_⟩
      intro batch' m hb
      have hb' := hon batch' m (onlyTask c tid)
      rw [hb] at hb'
      obtain ⟨c'', d', h1', h2', h3'⟩ := deliver_isolated (c := { c with mailbox := m' })
        (d := { onlyTask c tid with mailbox := ((readInbox batch').run m).2 }) hk (hrest _) slot_onlyTask ag cfg
        replies now
      obtain rfl : c' = c'' := congrArg Prod.snd (h1.symm.trans h1')
      exact ⟨d', (Exec.run_bind_ok hb').trans h2', h3'⟩

end

def marksRecovery : Event → Bool
  | .recovered => true
  | _ => false

/-- Answers the calls of recovered tasks; every other task's calls raise, but the first. -/
def Env.recoveredOnly : Env := { Env.faultless with raises := fun h _ => !h.getLast?.all marksRecovery }

/-- `lecture` recovered, and beside it a task whose first request raised. -/
def shared : Coordinator :=
  [.resume lecture ∅ 0, .submit { lecture with id := "t2" } 0].foldl (next Env.recoveredOnly {}) Coordinator.idle

theorem reachable_shared : (runs .any Env.recoveredOnly {}).Reachable shared :=
  LTS.reachable_foldl initial_idle
    ⟨⟨⟨trivial, rfl, rfl⟩, fun _ => trivial⟩,
      ⟨⟨trivial, Option.isNone_iff_eq_none.mp (by decide +kernel), List.isEmpty_iff.mp (by decide +kernel)⟩,
        fun _ => trivial⟩, trivial⟩

/-- A reply for each task, in one batch. -/
def bothReplies : Batch := .entries
  [{ entryId := "1-0", payload := some { transcript with messageId := "msg-0", taskId := "t2" } },
    { entryId := "2-0", payload := some transcript }]

theorem tick_isolated_shared :
    ((tick Env.recoveredOnly {} bothReplies 1).run shared).2.slot "t1" =
      ((soloTick Env.faultless {} bothReplies 1 "t1").run (onlyTask shared "t1")).2.slot "t1" := by
  have hk : Keyed shared := ((taskInv_trivial .any Env.recoveredOnly {}).invariant.reachable _ reachable_shared).1
  have hlast : (shared.outside "t1").history.getLast?.any marksRecovery = true := by decide +kernel
  have ag : AgreesFrom (shared.outside "t1").history Env.recoveredOnly Env.faultless := by
    refine ⟨?_, fun _ _ => rfl, fun _ _ => rfl, rfl, rfl⟩
    rintro _ call ⟨new, rfl⟩
    obtain ⟨e, he, hm⟩ := (Option.any_eq_true _ _).mp hlast
    simp [Env.recoveredOnly, Env.faultless, he, hm]
  obtain ⟨r, c', d, h1, h2, h3, -⟩ := tick_isolated hk ag {} bothReplies 1
  rw [h1, h2, h3]

end MasResearch.L3
