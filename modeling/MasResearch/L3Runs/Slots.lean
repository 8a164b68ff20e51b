import MasResearch.L2Dispatch.Steps

/-!
# A tick, task by task

The coordinator runs all its tasks in one loop, yet a tick treats every task as if
it were alone: `tick_slot` says that the slot of a task after a tick is what
`slotTick` makes of the slot before, given the accepted replies that carry its id.
Every later result about runs is therefore proved for one slot.

`Keyed` is the invariant of `_tasks` this rests on: a registered state is
well-formed and sits under its own task's id.
-/
namespace MasResearch.L3

open MasResearch.L1 MasResearch.L2 Relation

/-- `for reply in replies: self._route_reply(state, ...)`. -/
def slotRoutes (env : Env) (now : ℚ) : List Message → SlotM (List Job)
  | [] => pure []
  | reply :: replies => do
    let jobs ← routeTo env reply now
    let more ← slotRoutes env now replies
    pure (jobs ++ more)

/-- What a tick does for one task. -/
def slotTick (env : Env) (cfg : Config) (replies : List Message) (now : ℚ) : SlotM Unit := do
  let jobs ← slotRoutes env now replies
  processTask env cfg now
  Exec.forEach jobs (persistResult env)

/-- What a tick does with the replies it accepted.
mirrors src/agents/coordinator.py:187-215 -/
def deliver (env : Env) (cfg : Config) (replies : List Message) (now : ℚ) : CoordinatorM Unit := do
  let jobs ← routeAll env now replies
  processAll env cfg now
  Exec.forEach jobs fun job => forTask job.taskId (persistResult env job)

theorem tick_eq_deliver (env : Env) (cfg : Config) (batch : Batch) (now : ℚ) :
    tick env cfg batch now = onMailbox (readInbox batch) >>= fun replies => deliver env cfg replies now := rfl

/-- The state under `tid` is well-formed and belongs to the task `tid`. -/
def KeyedState (tid : String) (st : Option TaskState) : Prop := ∀ s, st = some s → s.Wf ∧ s.task.id = tid

def Keyed (c : Coordinator) : Prop := ∀ tid, KeyedState tid (c.tasks.get? tid)

theorem keyed_none (tid : String) : KeyedState tid none := fun _ h => by cases h

/-! ## Slots of a coordinator -/

section Slot

variable {c : Coordinator} {tid k : String} {l : Slot}

theorem slot_putSlot_self : (c.putSlot tid l).slot tid = ⟨l.state, l.outside, 0⟩ := by
  simp only [Coordinator.slot, Coordinator.putSlot, Function.update_self]
  cases l.state <;> simp

theorem slot_putSlot_ne (h : k ≠ tid) : (c.putSlot tid l).slot k = c.slot k := by
  simp only [Coordinator.slot, Coordinator.putSlot, Function.update_of_ne h]
  cases l.state <;> simp [h]

@[simp] theorem tasks_putSlot_self : (c.putSlot tid l).tasks.get? tid = l.state :=
  congrArg Slot.state slot_putSlot_self

@[simp] theorem outside_putSlot_self : (c.putSlot tid l).outside tid = l.outside :=
  congrArg Slot.outside slot_putSlot_self

theorem tasks_of_slot {c' : Coordinator} (h : c'.slot k = c.slot k) : c'.tasks.get? k = c.tasks.get? k :=
  congrArg Slot.state h

theorem outside_of_slot {c' : Coordinator} (h : c'.slot k = c.slot k) : c'.outside k = c.outside k :=
  congrArg Slot.outside h

theorem keyed_putSlot (h : Keyed c) (hl : KeyedState tid l.state) : Keyed (c.putSlot tid l) := by
  intro k
  by_cases hk : k = tid
  · subst hk
    rw [tasks_putSlot_self]; exact hl
  · rw [tasks_of_slot (slot_putSlot_ne hk)]; exact h k

theorem run_forTask {α : Type} {x : SlotM α} {r : Except PyError α} (h : x.run (c.slot tid) = (r, l)) :
    (forTask tid x).run c = (r, c.putSlot tid l) := by
  simp only [forTask, Exec.run_zoom, h]

end Slot

/-! ## Routing -/

section

variable (env : Env) (cfg : Config) (now : ℚ)

theorem run_routeTo {tid : String} {l : Slot} (h : KeyedState tid l.state) (reply : Message) :
    ∃ jobs l', (routeTo env reply now).run l = (.ok jobs, l') ∧ l'.inflight = l.inflight ∧
      KeyedState tid l'.state ∧ (∀ job ∈ jobs, job.taskId = tid) ∧
      ((l.state = none ∧ l' = l) ∨ ∃ s s', l.state = some s ∧ l'.state = some s' ∧
        l'.outside = l.outside.note (.routed reply) ∧ Routed env now reply s jobs s') := by
  obtain ⟨st, o, g⟩ := l
  cases st with
  | none => exact ⟨[], _, rfl, rfl, h, by simp, .inl ⟨rfl, rfl⟩⟩
  | some s =>
    obtain ⟨hwf, hid⟩ := h s rfl
    obtain ⟨jobs, s', h1, hr⟩ := run_routeReply env now reply hwf
      (o.note (.routed reply))
    simp only [routeTo, Exec.run_bind, Exec.run_get, Exec.run_modify, Slot.note, run_onState h1]
    refine ⟨jobs, _, rfl, rfl, ?_, ?_, .inr ⟨s, s', rfl, rfl, rfl, hr⟩⟩
    · rintro _ ⟨⟩
      exact ⟨Wf.routed hwf hr, by rw [hr.frame.1, hid]⟩
    · intro job hj
      cases hr with
      | ignored => cases hj
      | refused => cases hj
      | informed =>
        obtain rfl := List.mem_singleton.mp hj
        exact hid

/-- Routing a task's replies never raises. -/
theorem run_slotRoutes {tid : String} : ∀ (replies : List Message) {l : Slot}, KeyedState tid l.state →
    ∃ jobs l', (slotRoutes env now replies).run l = (.ok jobs, l') ∧ KeyedState tid l'.state
  | [], l, h => ⟨[], l, rfl, h⟩
  | reply :: replies, l, h => by
    obtain ⟨jobs, l1, h1, -, hk1, -⟩ := run_routeTo env now h reply
    obtain ⟨more, l2, h2, hk2⟩ := run_slotRoutes replies hk1
    exact ⟨jobs ++ more, l2, by simp only [slotRoutes, Exec.run_bind, h1, h2, Exec.run_pure], hk2⟩

/-- Routing all replies routes, for each task, its own replies in order. -/
theorem routeAll_slot : ∀ (replies : List Message) (c : Coordinator), Keyed c →
    ∃ jobs c', (routeAll env now replies).run c = (.ok jobs, c') ∧ Keyed c' ∧ c'.mailbox = c.mailbox ∧
      ∀ tid, (slotRoutes env now (replies.filter fun r => r.taskId = tid)).run (c.slot tid) =
        (.ok (jobs.filter fun j => j.taskId = tid), c'.slot tid)
  | [], c, h => ⟨[], c, rfl, h, rfl, fun _ => rfl⟩
  | reply :: replies, c, h => by
    obtain ⟨jobs, l, h1, hg, hk, hj, -⟩ := run_routeTo env now (l := c.slot reply.taskId) (h reply.taskId) reply
    obtain ⟨more, c', h2, hk', hm, ih⟩ :=
      routeAll_slot replies (c.putSlot reply.taskId l) (keyed_putSlot h hk)
    refine ⟨jobs ++ more, c', ?_, hk', hm, fun tid => ?_⟩
    · simp only [routeAll, Exec.run_bind, run_forTask h1, h2, Exec.run_pure]
    have ih := ih tid
    by_cases ht : tid = reply.taskId
    · subst ht
      have hl : (c.putSlot reply.taskId l).slot reply.taskId = l := by
        rw [slot_putSlot_self, ← (show l.inflight = 0 from hg)]
      have hall : jobs.filter (fun j => j.taskId = reply.taskId) = jobs :=
        List.filter_eq_self.mpr fun j hj' => by simpa using hj j hj'
      rw [hl] at ih
      simp only [List.filter_cons, decide_true, if_true, slotRoutes, Exec.run_bind, h1, ih, Exec.run_pure,
        List.filter_append, hall]
    · have hnone : jobs.filter (fun j => j.taskId = tid) = [] :=
        List.filter_eq_nil_iff.mpr fun j hj' => by simpa [hj j hj'] using Ne.symm ht
      rw [slot_putSlot_ne ht] at ih
      simp only [List.filter_cons, decide_eq_true_eq, if_neg (Ne.symm ht), ih, List.filter_append, hnone,
        List.nil_append]

/-! ## The loop over the tasks -/

variable {cfg now}

theorem keyed_step {tid : String} {v v' : View} (hv : KeyedState tid v.1) (h : SlotStep env cfg now v v') :
    KeyedState tid v'.1 := by
  cases h with
  | @move s o c hm =>
    rintro _ ⟨⟩
    obtain ⟨hwf, hid⟩ := hv s rfl
    exact ⟨Wf.move hwf hm, by rw [hm.frame.1]; exact hid⟩
  | finalizing => exact hv
  | recorded => exact hv
  | closed => exact keyed_none tid

theorem keyed_star {tid : String} {v v' : View} (hv : KeyedState tid v.1)
    (h : ReflTransGen (SlotStep env cfg now) v v') : KeyedState tid v'.1 :=
  Exec.stable_star (P := fun v : View => KeyedState tid v.1) (fun _ _ hv h => keyed_step env hv h) h hv

variable (cfg now)

/-- One round of the loop of `_tick`, registered or not. -/
theorem run_processTask {tid : String} {l : Slot} (h : KeyedState tid l.state) :
    ∃ l', (processTask env cfg now).run l = (.ok (), l') ∧
      ReflTransGen (SlotStep env cfg now) l.view l'.view ∧ KeyedState tid l'.state ∧
      ∀ s, l'.state = some s → Waiting cfg now s := by
  obtain ⟨st, o, g⟩ := l
  cases st with
  | none => exact ⟨_, run_processTask_none o g, .refl, h, fun _ he => by cases he⟩
  | some s =>
    obtain ⟨l', h1, hs, -, hw⟩ := processTask_spec env cfg now (h s rfl).1 o g
    exact ⟨l', h1, hs, keyed_star env h hs, hw⟩

/-- A slot with its gauge put back to zero. -/
def Slot.reset (l : Slot) : Slot := ⟨l.state, l.outside, 0⟩

theorem processAll_slot (c : Coordinator) (h : Keyed c) :
    ∃ c', (processAll env cfg now).run c = (.ok (), c') ∧ Keyed c' ∧ c'.mailbox = c.mailbox ∧
      ∀ tid, c'.slot tid = Slot.reset ((processTask env cfg now).run (c.slot tid)).2 := by
  have hround : ∀ k ∈ c.tasks.keys, ∀ d : Coordinator, (Keyed d ∧ d.mailbox = c.mailbox) →
      ∃ d', (forTask k (processTask env cfg now)).run d = (.ok (), d') ∧
        (Keyed d' ∧ d'.mailbox = c.mailbox) ∧
        d'.slot k = Slot.reset ((processTask env cfg now).run (d.slot k)).2 ∧
        ∀ k', k' ≠ k → d'.slot k' = d.slot k' := by
    intro k _ d hd
    obtain ⟨l, h1, -, hk, -⟩ := run_processTask env cfg now (l := d.slot k) (hd.1 k)
    refine ⟨d.putSlot k l, run_forTask h1, ⟨keyed_putSlot hd.1 hk, hd.2⟩, ?_, fun k' hne => slot_putSlot_ne hne⟩
    rw [slot_putSlot_self, h1]; rfl
  obtain ⟨c', h1, hk, hown, hframe⟩ := Exec.forEach_view (fun k c => c.slot k)
    (fun d => Keyed d ∧ d.mailbox = c.mailbox)
    (fun _ l l' => l' = Slot.reset ((processTask env cfg now).run l).2) c.tasks.keys c.tasks.nodup_keys
    hround c ⟨h, rfl⟩
  refine ⟨c', h1, hk.1, hk.2, fun tid => ?_⟩
  by_cases ht : tid ∈ c.tasks
  · exact hown tid ht
  · rw [hframe tid ht]
    have hn : c.slot tid = ⟨none, c.outside tid, 0⟩ := by
      rw [Coordinator.slot, Dict.not_mem_iff.mp ht]
    rw [hn, run_processTask_none]; rfl

/-! ## Persisting -/

/-- `_persist_result` never raises; it reads and writes the world only. -/
theorem run_persistAttempts (op : Operation) (content : Content) : ∀ (n : Nat) (o : Outside),
    ∃ o', ReflTransGen Recorded o o' ∧ ∀ st g,
      (persistAttempts env op content n).run ⟨st, o, g⟩ = (.ok (), ⟨st, o', g⟩)
  | 0, o => ⟨o, .refl, fun _ _ => rfl⟩
  | n + 1, o => by
    obtain ⟨r, o1, h1, hq⟩ := recorded_saveResult env op content o
    simp only [persistAttempts, storeCall, Exec.run_attempt, Exec.run_zoom, h1]
    cases r with
    | ok _ => exact ⟨o1, .single hq, fun _ _ => rfl⟩
    | error _ =>
      obtain ⟨o2, hq2, h2⟩ := run_persistAttempts op content n o1
      exact ⟨o2, .head hq hq2, h2⟩

theorem run_persistResult (job : Job) (o : Outside) : ∃ o', ReflTransGen Recorded o o' ∧ ∀ st g,
    (persistResult env job).run ⟨st, o, g⟩ = (.ok (), ⟨st, o', g⟩) :=
  run_persistAttempts env job.operation job.content persistRetries o

theorem run_persistJobs : ∀ (jobs : List Job) (o : Outside), ∃ o', ReflTransGen Recorded o o' ∧ ∀ st g,
    (Exec.forEach jobs (persistResult env)).run ⟨st, o, g⟩ = (.ok (), ⟨st, o', g⟩)
  | [], o => ⟨o, .refl, fun _ _ => rfl⟩
  | job :: jobs, o => by
    obtain ⟨o1, hq, h1⟩ := run_persistResult env job o
    obtain ⟨o2, hq2, h2⟩ := run_persistJobs jobs o1
    exact ⟨o2, hq.trans hq2, fun st g => by rw [Exec.forEach, Exec.run_bind_ok (h1 st g), h2]⟩

theorem persistAll_slot : ∀ (jobs : List Job) (c : Coordinator), Keyed c →
    ∃ c', (Exec.forEach jobs fun job => forTask job.taskId (persistResult env job)).run c = (.ok (), c') ∧
      Keyed c' ∧ c'.mailbox = c.mailbox ∧ ∀ tid,
        (Exec.forEach (jobs.filter fun j => j.taskId = tid) (persistResult env)).run (c.slot tid) =
          (.ok (), c'.slot tid)
  | [], c, h => ⟨c, rfl, h, rfl, fun _ => rfl⟩
  | job :: jobs, c, h => by
    obtain ⟨o', -, h1⟩ := run_persistResult env job (c.outside job.taskId)
    have h1 := h1 (c.tasks.get? job.taskId) 0
    obtain ⟨c', h2, hk, hm, ih⟩ := persistAll_slot jobs _
      (keyed_putSlot (l := ⟨c.tasks.get? job.taskId, o', 0⟩) h (h job.taskId))
    refine ⟨c', by rw [Exec.forEach, Exec.run_bind_ok (run_forTask h1), h2], hk, hm, fun tid => ?_⟩
    have ih := ih tid
    by_cases ht : tid = job.taskId
    · subst ht
      rw [slot_putSlot_self] at ih
      simp only [List.filter_cons, decide_true, if_true, Exec.forEach]
      have hjob : (persistResult env job).run (c.slot job.taskId) = _ := h1
      rw [Exec.run_bind_ok hjob]
      exact ih
    · rw [slot_putSlot_ne ht] at ih
      simpa only [List.filter_cons, decide_eq_true_eq, if_neg (Ne.symm ht)] using ih

/-! ## What the history gains -/

/-- Routing a registered task's replies records each of them. -/
theorem slotRoutes_history {tid : String} : ∀ (replies : List Message) {l : Slot} {s : TaskState},
    KeyedState tid l.state → l.state = some s →
    ∃ jobs l', (slotRoutes env now replies).run l = (.ok jobs, l') ∧ KeyedState tid l'.state ∧
      l'.outside.history = (replies.map Event.routed).reverse ++ l.outside.history
  | [], l, s, h, _ => ⟨[], l, rfl, h, rfl⟩
  | reply :: replies, l, s, h, hs => by
    obtain ⟨jobs, l1, h1, -, hk1, -, hc⟩ := run_routeTo env now h reply
    rcases hc with ⟨hn, -⟩ | ⟨_, s', -, hs', ho, -⟩
    · rw [hs] at hn; cases hn
    obtain ⟨more, l2, h2, hk2, hh⟩ := slotRoutes_history replies hk1 hs'
    refine ⟨jobs ++ more, l2, by simp only [slotRoutes, Exec.run_bind, h1, h2, Exec.run_pure], hk2, ?_⟩
    rw [hh, ho]
    simp

/-- A slot step extends the history by at most one event, neither a routed reply
nor a registration. -/
theorem slotStep_history {v v' : View} (hs : SlotStep env cfg now v v') :
    v'.2.history = v.2.history ∨ ∃ e, (∀ m, e ≠ .routed m) ∧ (∀ who, e ≠ .registered who) ∧
      v'.2.history = e :: v.2.history := by
  cases hs with
  | move hm =>
    cases hm with
    | ready => exact .inr ⟨_, fun _ => by simp, fun _ => by simp, rfl⟩
    | skip => exact .inl rfl
    | expire => exact .inl rfl
    | again => exact .inr ⟨_, fun _ => by simp, fun _ => by simp, rfl⟩
  | finalizing => exact .inr ⟨_, fun _ => by simp, fun _ => by simp, rfl⟩
  | recorded hq =>
    obtain ⟨e, he, hh⟩ := hq
    exact .inr ⟨e, fun m hm => (by rw [hm] at he; cases he), fun who hw => (by rw [hw] at he; cases he), hh⟩
  | closed => exact .inl rfl

theorem slotSteps_history {v v' : View} (hs : ReflTransGen (SlotStep env cfg now) v v') :
    ∃ new, (∀ e ∈ new, ∀ who, e ≠ .registered who) ∧ v'.2.history = new ++ v.2.history := by
  induction hs with
  | refl => exact ⟨[], by simp, rfl⟩
  | tail _ hs ih =>
    obtain ⟨new, hr, hn⟩ := ih
    rcases slotStep_history env cfg now hs with he | ⟨e, -, hw, he⟩
    · exact ⟨new, hr, he.trans hn⟩
    · exact ⟨e :: new, List.forall_mem_cons.mpr ⟨hw, hr⟩, by rw [he, hn]; rfl⟩

/-- What is left of a tick once the replies are routed. -/
theorem run_slotTick {tid : String} {replies : List Message} {l l1 : Slot} {jobs : List Job}
    (h1 : (slotRoutes env now replies).run l = (.ok jobs, l1)) (hk1 : KeyedState tid l1.state) :
    ∃ l', (slotTick env cfg replies now).run l = (.ok (), l') ∧
      ReflTransGen (SlotStep env cfg now) l1.view l'.view ∧ ∀ s, l'.state = some s → Waiting cfg now s := by
  obtain ⟨l2, h2, hs2, -, hw⟩ := run_processTask env cfg now hk1
  obtain ⟨o3, hq, h3⟩ := run_persistJobs env jobs l2.outside
  refine ⟨⟨l2.state, o3, l2.inflight⟩, ?_, hs2.trans (recorded_star hq), hw⟩
  rw [slotTick, Exec.run_bind_ok h1, Exec.run_bind_ok h2, h3]

/-- A tick routes every reply of a registered task and registers nothing. -/
theorem slotTick_history {tid : String} (replies : List Message) {l : Slot} {s : TaskState}
    (hk : KeyedState tid l.state) (hs : l.state = some s) :
    ∃ new, ((slotTick env cfg replies now).run l).2.outside.history = new ++ l.outside.history ∧
      (∀ m ∈ replies, Event.routed m ∈ new) ∧ ∀ e ∈ new, ∀ who, e ≠ .registered who := by
  obtain ⟨jobs, l1, h1, hk1, hh1⟩ := slotRoutes_history env now replies hk hs
  obtain ⟨l2, h2, hs2, -⟩ := run_slotTick env cfg now h1 hk1
  obtain ⟨new, hw, hn⟩ := slotSteps_history env cfg now hs2
  have hn : l2.outside.history = new ++ l1.outside.history := hn
  refine ⟨new ++ (replies.map Event.routed).reverse, ?_, fun m hm => ?_, fun e he => ?_⟩
  · rw [h2, hn, hh1, List.append_assoc]
  · exact List.mem_append_right _ (List.mem_reverse.mpr (List.mem_map_of_mem hm))
  · rcases List.mem_append.mp he with he | he
    · exact hw e he
    · obtain ⟨m, -, rfl⟩ := List.mem_map.mp (List.mem_reverse.mp he)
      exact fun _ => by simp

/-! ## The whole tick -/

theorem run_slotRoutes_none (o : Outside) (g : Int) : ∀ replies : List Message,
    (slotRoutes env now replies).run ⟨none, o, g⟩ = (.ok [], ⟨none, o, g⟩)
  | [] => rfl
  | reply :: replies => by
    have h1 : (routeTo env reply now).run ⟨none, o, g⟩ = (.ok [], ⟨none, o, g⟩) := rfl
    simp only [slotRoutes, Exec.run_bind, h1, run_slotRoutes_none o g replies, Exec.run_pure, List.nil_append]

/-- A tick does nothing for a task that is not registered. -/
theorem run_slotTick_none (replies : List Message) (o : Outside) (g : Int) :
    (slotTick env cfg replies now).run ⟨none, o, g⟩ = (.ok (), ⟨none, o, g⟩) := by
  rw [slotTick, Exec.run_bind_ok (run_slotRoutes_none env now o g replies),
    Exec.run_bind_ok (run_processTask_none o g)]
  rfl

/-- The rest of a tick, task by task. -/
theorem deliver_slot (replies : List Message) (c : Coordinator) (h : Keyed c) :
    ∃ c', (deliver env cfg replies now).run c = (.ok (), c') ∧ Keyed c' ∧ c'.mailbox = c.mailbox ∧
      ∀ tid, c'.slot tid = Slot.reset
        ((slotTick env cfg (replies.filter fun r => r.taskId = tid) now).run (c.slot tid)).2 := by
  obtain ⟨jobs, c1, h1, hk1, hm1, hs1⟩ := routeAll_slot env now replies c h
  obtain ⟨c2, h2, hk2, hm2, hs2⟩ := processAll_slot env cfg now c1 hk1
  obtain ⟨c3, h3, hk3, hm3, hs3⟩ := persistAll_slot env jobs c2 hk2
  refine ⟨c3, ?_, hk3, hm3.trans (hm2.trans hm1), fun tid => ?_⟩
  · rw [deliver, Exec.run_bind_ok h1, Exec.run_bind_ok h2, h3]
  obtain ⟨l, hp, -⟩ := run_processTask env cfg now (l := c1.slot tid) (hk1 tid)
  obtain ⟨o', -, hj⟩ := run_persistJobs env (jobs.filter fun j => j.taskId = tid) l.outside
  have hslot : c2.slot tid = ⟨l.state, l.outside, 0⟩ := by rw [hs2 tid, hp]; rfl
  have hfin : c3.slot tid = ⟨l.state, o', 0⟩ := by
    have := hs3 tid
    rw [hslot, hj] at this
    exact (congrArg Prod.snd this).symm
  rw [slotTick, Exec.run_bind_ok (hs1 tid), Exec.run_bind_ok hp, hj l.state l.inflight, hfin]
  rfl

/-- **A tick, task by task.** Once the read loop has returned, a tick does not
raise, and the slot of each task becomes what `slotTick` makes of it. -/
theorem tick_slot (batch : Batch) (c : Coordinator) (h : Keyed c) {replies : List Message} {m : Mailbox}
    (hread : (readInbox batch).run c.mailbox = (.ok replies, m)) :
    ∃ c', (tick env cfg batch now).run c = (.ok (), c') ∧ Keyed c' ∧ c'.mailbox = m ∧
      ∀ tid, c'.slot tid = Slot.reset
        ((slotTick env cfg (replies.filter fun r => r.taskId = tid) now).run (c.slot tid)).2 := by
  have h0 : (onMailbox (readInbox batch)).run c = (.ok replies, { c with mailbox := m }) := by
    simp only [onMailbox, Exec.run_zoom, hread]
  obtain ⟨c', hrun, hk, hm, hslot⟩ := deliver_slot env cfg now replies { c with mailbox := m } h
  exact ⟨c', by rw [tick_eq_deliver, Exec.run_bind_ok h0, hrun], hk, hm, hslot⟩

/-- A tick whose read loop raised touched the mailbox only. -/
theorem tick_unread {c : Coordinator} {batch : Batch} {e : PyError} {m : Mailbox}
    (hread : (readInbox batch).run c.mailbox = (.error e, m)) :
    (tick env cfg batch now).run c = (.error e, { c with mailbox := m }) := by
  have h0 : (onMailbox (readInbox batch)).run c = (.error e, { c with mailbox := m }) := by
    simp only [onMailbox, Exec.run_zoom, hread]
  rw [tick, Exec.run_bind_error h0]

/-- The two ways a tick ends. -/
theorem tick_cases (batch : Batch) (c : Coordinator) (h : Keyed c) :
    (∃ e m, (readInbox batch).run c.mailbox = (.error e, m) ∧
      (tick env cfg batch now).run c = (.error e, { c with mailbox := m })) ∨
    ∃ replies m c', (readInbox batch).run c.mailbox = (.ok replies, m) ∧
      (tick env cfg batch now).run c = (.ok (), c') ∧ Keyed c' ∧ ∀ tid, c'.slot tid = Slot.reset
        ((slotTick env cfg (replies.filter fun r => r.taskId = tid) now).run (c.slot tid)).2 := by
  cases hread : (readInbox batch).run c.mailbox with
  | mk r m =>
    cases r with
    | error e => exact .inl ⟨e, m, rfl, tick_unread env cfg now hread⟩
    | ok replies =>
      obtain ⟨c', hrun, hk, -, hslot⟩ := tick_slot env cfg now batch c h hread
      exact .inr ⟨replies, m, c', rfl, hrun, hk, hslot⟩

end

end MasResearch.L3
