import MasResearch.Core.LTS
import MasResearch.L3Runs.Routings

/-!
# Runs of the coordinator

A run starts with no task registered and takes `submit`, `_resume` and tick
transitions in any order, at any clock readings, over task ids that are started
once. A transition is the whole coroutine, whatever it returned or raised.

`Assumptions` is what a result takes for granted about the surroundings: which
tasks are started, which replies arrive, and what has happened by the time a
clock reading is reached. `Assumptions.any` takes nothing for granted.

`LogInv` is the rule for invariants of one task that relate a registered state, the
task's history and the log of its routed replies: what holds at registration and is
kept by moves, routed replies and the start of a finalization is kept by every
transition (`LogInv.onSlots_next`). `TaskInv` is the rule without the log; its
invariants hold of every registered task of every reachable coordinator
(`TaskInv.registered`), and what it says about histories holds of every history
(`TaskInv.histories`).
-/
namespace MasResearch.L3

open MasResearch.L1 MasResearch.L2 Relation TaskState

inductive Action where
  | submit (task : Task) (now : ℚ)
  | resume (task : Task) (results : Dict String Content) (now : ℚ)
  | tick (batch : Batch) (now : ℚ)

def Action.now : Action → ℚ
  | .submit _ now | .resume _ _ now | .tick _ now => now

def Action.coroutine (env : Env) (cfg : Config) : Action → CoordinatorM Unit
  | .submit task now => forTask task.id (L2.submit env cfg task now)
  | .resume task results now => forTask task.id (L2.resume env cfg task results now)
  | .tick batch now => L2.tick env cfg batch now

def next (env : Env) (cfg : Config) (c : Coordinator) (a : Action) : Coordinator :=
  ((a.coroutine env cfg).run c).2

/-- Nothing is registered or was ever done for the task. -/
def Fresh (c : Coordinator) (tid : String) : Prop := c.tasks.get? tid = none ∧ (c.outside tid).history = []

def Initial (c : Coordinator) : Prop := ∀ tid, Fresh c tid

section

variable (env : Env) (cfg : Config) {c : Coordinator} {tid : String}

theorem Fresh.slot (h : Fresh c tid) : c.slot tid = ⟨none, c.outside tid, 0⟩ := by rw [Coordinator.slot, h.1]

theorem next_submit {task : Task} (h : Fresh c task.id) (now : ℚ) : next env cfg c (.submit task now) =
    c.putSlot task.id ((L2.submit env cfg task now).run ⟨none, c.outside task.id, 0⟩).2 := by
  rw [next, Action.coroutine, forTask, Exec.run_zoom, h.slot]

theorem next_resume {task : Task} (h : Fresh c task.id) (results : Dict String Content) (now : ℚ) :
    next env cfg c (.resume task results now) =
      c.putSlot task.id ((L2.resume env cfg task results now).run ⟨none, c.outside task.id, 0⟩).2 := by
  rw [next, Action.coroutine, forTask, Exec.run_zoom, h.slot]

/-- A tick leaves the tasks alone that are not registered. -/
theorem slot_tick_of_none (h : Keyed c) (batch : Batch) (now : ℚ) (ht : c.tasks.get? tid = none) :
    (next env cfg c (.tick batch now)).slot tid = c.slot tid := by
  rw [next, Action.coroutine]
  rcases tick_cases env cfg now batch c h with ⟨e, m, -, hrun⟩ | ⟨replies, m, c', -, hrun, -, hslot⟩
  · rw [hrun]; rfl
  · rw [hrun, hslot tid, Coordinator.slot, ht, run_slotTick_none]; rfl

end

/-- What is assumed about the surroundings of a run. `reply` is about a message
that is routed to a registered state with its task's history; `timely` relates a
clock reading and a task's history after the transition made at it. -/
structure Assumptions where
  submits : Task → Prop := fun _ => True
  resumes : Task → Dict String Content → Prop := fun _ _ => True
  reply : TaskState → List Event → Message → Prop := fun _ _ _ => True
  timely : ℚ → List Event → Prop := fun _ _ => True
  timely_mono : ∀ now e h, (∀ m, e ≠ .routed m) → timely now (e :: h) → timely now h := by intros; trivial

def Assumptions.any : Assumptions := {}

/-- Each reply meets the assumption at the moment it is routed. -/
def Assumptions.routable (A : Assumptions) (env : Env) (now : ℚ) : List Message → Slot → Prop
  | [], _ => True
  | m :: ms, l => (∀ s, l.state = some s → A.reply s l.outside.history m) ∧
      A.routable env now ms ((routeTo env m now).run l).2

def Assumptions.allows (A : Assumptions) (env : Env) (c : Coordinator) : Action → Prop
  | .submit task _ => A.submits task ∧ Fresh c task.id
  | .resume task results _ => A.resumes task results ∧ Fresh c task.id
  | .tick batch now => ∀ replies, ((readInbox batch).run c.mailbox).1 = .ok replies →
      ∀ tid, A.routable env now (replies.filter fun r => r.taskId = tid) (c.slot tid)

/-- The transitions of the runs under `A`. -/
structure Admissible (A : Assumptions) (env : Env) (cfg : Config) (c : Coordinator) (a : Action) : Prop where
  allowed : A.allows env c a
  timely : ∀ tid, A.timely a.now ((next env cfg c a).outside tid).history

def runs (A : Assumptions) (env : Env) (cfg : Config) : LTS Coordinator Action :=
  LTS.guarded Initial (Admissible A env cfg) (next env cfg)

/-- The replies a transition routes, with the state each found and left. -/
def Action.log (env : Env) (c : Coordinator) : Action → List Routing
  | .tick batch now => match (readInbox batch).run c.mailbox with
    | (.ok replies, m) => routeLog env now replies { c with mailbox := m }
    | (.error _, _) => []
  | .submit .. | .resume .. => []

/-! ## Invariants of one task and its log -/

/-- `J` relates a registered state, its task's history and the log of its replies, `K`
is about a history and a log. -/
structure LogInv (A : Assumptions) (env : Env) (cfg : Config)
    (J : TaskState → List Event → List Routing → Prop) (K : List Event → List Routing → Prop) : Prop where
  submitted : ∀ task now, A.submits task → J (TaskState.submitted task now) [] []
  resumed : ∀ task results now, A.resumes task results → J (TaskState.resumed task results now) [] []
  move : ∀ {now s o c log}, J s o.history log → s.Wf → Move env cfg now ⟨s, o⟩ c →
    A.timely now c.outside.history → J c.state c.outside.history log
  routed : ∀ {now s h m jobs s' log}, J s h log → s.Wf → m.taskId = s.task.id → A.reply s h m →
    Routed env now m s jobs s' → J s' (.routed m :: h) (log ++ [⟨m, s, jobs, s'⟩])
  finalizing : ∀ {now s h log} cause, J s h log → s.Wf → Finalizable cfg now s cause →
    J s (.finalizing cause (determineFinalStatus s.plan s.results) s :: h) log
  recorded : ∀ {s h e log}, J s h log → e.quiet = true → J s (e :: h) log
  history : ∀ {s h log}, J s h log → K h log
  empty : K [] []
  quiet : ∀ {h e log}, K h log → e.quiet = true → K (e :: h) log

/-- The invariant on a slot. A task nothing was done for has no log. -/
structure LogView (J : TaskState → List Event → List Routing → Prop) (K : List Event → List Routing → Prop)
    (log : List Routing) (v : View) : Prop where
  state : ∀ s, v.1 = some s → J s v.2.history log
  told : K v.2.history log
  fresh : v.2.history = [] → log = []

theorem nothingDue_submitted (task : Task) (now : ℚ) : NothingDue now (TaskState.submitted task now) := by
  intro sid t h; cases h

theorem nothingDue_resumed (task : Task) (results : Dict String Content) (now : ℚ) :
    NothingDue now (TaskState.resumed task results now) := by
  intro sid t h; cases h

namespace LogInv

variable {A : Assumptions} {env : Env} {cfg : Config} {J : TaskState → List Event → List Routing → Prop}
  {K : List Event → List Routing → Prop} {now : ℚ} {tid : String} {log : List Routing}

theorem logView (hI : LogInv A env cfg J K) {s : TaskState} {o : Outside} (h : J s o.history log)
    (hf : o.history = [] → log = []) : LogView J K log (some s, o) :=
  ⟨by rintro _ ⟨⟩; exact h, hI.history h, hf⟩

theorem logView_recorded (hI : LogInv A env cfg J K) {st : Option TaskState} {o o' : Outside}
    (h : LogView J K log (st, o)) (hq : Recorded o o') : LogView J K log (st, o') := by
  obtain ⟨e, he, hh⟩ := hq
  refine ⟨fun s hs => ?_, ?_, ?_⟩ <;> rw [hh]
  · exact hI.recorded (h.state s hs) (Event.quiet_of_outcome he)
  · exact hI.quiet h.told (Event.quiet_of_outcome he)
  · simp

theorem logView_recorded_star (hI : LogInv A env cfg J K) {st : Option TaskState} {o o' : Outside}
    (h : LogView J K log (st, o)) (hq : ReflTransGen Recorded o o') : LogView J K log (st, o') := by
  induction hq with
  | refl => exact h
  | tail _ hs ih => exact hI.logView_recorded ih hs

/-- **Step.** -/
theorem step (hI : LogInv A env cfg J K) {v v' : View} (hk : KeyedState tid v.1) (h : LogView J K log v)
    (hs : SlotStep env cfg now v v') (ht : A.timely now v'.2.history) : LogView J K log v' := by
  have hf : v'.2.history = [] → log = [] := by
    intro he
    rcases slotStep_history env cfg now hs with hh | ⟨e, -, -, hh⟩
    · exact h.fresh (hh.symm.trans he)
    · rw [hh] at he; cases he
  cases hs with
  | move hm => exact hI.logView (hI.move (h.state _ rfl) (hk _ rfl).1 hm ht) hf
  | finalizing cause hfin => exact hI.logView (hI.finalizing cause (h.state _ rfl) (hk _ rfl).1 hfin) hf
  | recorded hq => exact hI.logView_recorded h hq
  | closed => exact ⟨fun _ he => (by cases he), h.told, hf⟩

/-- **Run of steps** at one clock reading; what is timely at the end was timely before. -/
theorem steps (hI : LogInv A env cfg J K) {v v' : View} (hk : KeyedState tid v.1) (h : LogView J K log v)
    (hs : ReflTransGen (SlotStep env cfg now) v v') : A.timely now v'.2.history → LogView J K log v' := by
  induction hs with
  | refl => exact fun _ => h
  | tail hr hs ih =>
    intro ht
    refine hI.step (keyed_star env hk hr) (ih ?_) hs ht
    rcases slotStep_history env cfg now hs with he | ⟨e, he, -, hh⟩
    · rwa [he] at ht
    · rw [hh] at ht; exact A.timely_mono _ _ _ he ht

theorem logView_routes (hI : LogInv A env cfg J K) : ∀ {replies : List Message} {l : Slot} {log : List Routing},
    KeyedState tid l.state → LogView J K log l.view → (∀ m ∈ replies, m.taskId = tid) →
    A.routable env now replies l →
    ∃ jobs l', (slotRoutes env now replies).run l = (.ok jobs, l') ∧ KeyedState tid l'.state ∧
      LogView J K (log ++ slotLog env now replies l) l'.view
  | [], l, log, hk, h, _, _ => ⟨[], l, rfl, hk, by rw [slotLog, List.append_nil]; exact h⟩
  | m :: replies, l, log, hk, h, hid, hr => by
    obtain ⟨jobs, l1, h1, -, hk1, -, -, hc⟩ := routing_routeTo env now hk m
    rw [List.forall_mem_cons] at hid
    obtain ⟨hm, hr⟩ := hr
    rw [h1] at hr
    have hv : LogView J K (log ++ routing m l.state (.ok jobs, l1)) l1.view := by
      rcases hc with ⟨-, rfl, he⟩ | ⟨s, s', hs, hs', ho, hrt, he⟩ <;> rw [he]
      · rw [List.append_nil]; exact h
      · have hv := hI.logView (o := l.outside.note (.routed m))
          (hI.routed (h.state s hs) (hk s hs).1 (hid.1.trans (hk s hs).2.symm) (hm s hs) hrt)
          (fun hn => by cases hn)
        rwa [Slot.view, hs', ho]
    obtain ⟨more, l', h2, hk', h'⟩ := logView_routes hI hk1 hv hid.2 hr
    refine ⟨jobs ++ more, l', by simp only [slotRoutes, Exec.run_bind, h1, h2, Exec.run_pure], hk', ?_⟩
    rw [slotLog, h1, ← List.append_assoc]
    exact h'

theorem logView_slotTick (hI : LogInv A env cfg J K) {replies : List Message} {l : Slot}
    (hk : KeyedState tid l.state) (h : LogView J K log l.view) (hid : ∀ m ∈ replies, m.taskId = tid)
    (hr : A.routable env now replies l)
    (ht : A.timely now ((slotTick env cfg replies now).run l).2.outside.history) :
    LogView J K (log ++ slotLog env now replies l) ((slotTick env cfg replies now).run l).2.view := by
  obtain ⟨jobs, l1, h1, hk1, hv1⟩ := hI.logView_routes hk h hid hr
  obtain ⟨l2, h2, hs2, -⟩ := run_slotTick env cfg now h1 hk1
  rw [h2] at ht ⊢
  exact hI.steps hk1 hv1 hs2 ht

/-- What `submit` and `_resume` leave behind. -/
theorem logView_enrol (hI : LogInv A env cfg J K) {s : TaskState} (hwf : s.Wf) (hdue : NothingDue now s)
    {who : Registrar} {o : Outside} {g : Int} (h : J s o.history [])
    (ht : A.timely now ((enrol env cfg who s now).run ⟨none, o, g⟩).2.outside.history) :
    LogView J K [] ((enrol env cfg who s now).run ⟨none, o, g⟩).2.view ∧
      KeyedState s.task.id ((enrol env cfg who s now).run ⟨none, o, g⟩).2.state := by
  obtain ⟨r, l', h1, -, hc⟩ := enrol_spec env cfg hwf hdue who o g
  rw [h1] at ht ⊢
  rcases hc with ⟨hp, hs⟩ | ⟨hp, hn, hq⟩
  · have hv : LogView J K [] (some s, o.note (.registered who)) := hI.logView (hI.recorded h rfl) fun _ => rfl
    have hk : KeyedState s.task.id (some s) := by rintro _ ⟨⟩; exact ⟨hwf, rfl⟩
    exact ⟨hI.steps hk hv hs ht, keyed_star env hk hs⟩
  · have hf : LogView J K []
        (some s, o.note (.finalizing .resolved (determineFinalStatus s.plan s.results) s)) :=
      hI.logView (hI.finalizing .resolved h hwf (show Finalizable cfg now s .resolved from hp)) fun _ => rfl
    refine ⟨⟨fun s' he => ?_, (hI.logView_recorded_star hf hq).told, fun _ => rfl⟩, by rw [hn]; exact keyed_none _⟩
    have he : l'.state = some s' := he
    rw [hn] at he; cases he

theorem logView_fresh (hI : LogInv A env cfg J K) {o : Outside} (h : o.history = []) :
    LogView J K [] (none, o) := ⟨fun _ he => (by cases he), by rw [h]; exact hI.empty, fun _ => rfl⟩

theorem logView_submit (hI : LogInv A env cfg J K) {task : Task} {o : Outside} (hs : A.submits task)
    (ho : o.history = [])
    (ht : A.timely now ((L2.submit env cfg task now).run ⟨none, o, 0⟩).2.outside.history) :
    LogView J K [] ((L2.submit env cfg task now).run ⟨none, o, 0⟩).2.view ∧
      KeyedState task.id ((L2.submit env cfg task now).run ⟨none, o, 0⟩).2.state := by
  obtain ⟨o1, hq, ⟨e, hrun⟩ | hrun⟩ := run_submit env cfg task now none o 0
  · rw [hrun]
    exact ⟨hI.logView_recorded (hI.logView_fresh ho) hq, keyed_none _⟩
  · rw [hrun] at ht ⊢
    refine hI.logView_enrol (exact_submitted task now).toWf (nothingDue_submitted task now) ?_ ht
    obtain ⟨e, he, hh⟩ := hq
    rw [hh, ho]
    exact hI.recorded (hI.submitted task now hs) (Event.quiet_of_outcome he)

theorem logView_resume (hI : LogInv A env cfg J K) {task : Task} {results : Dict String Content} {o : Outside}
    (hs : A.resumes task results) (ho : o.history = [])
    (ht : A.timely now ((L2.resume env cfg task results now).run ⟨none, o, 0⟩).2.outside.history) :
    LogView J K [] ((L2.resume env cfg task results now).run ⟨none, o, 0⟩).2.view ∧
      KeyedState task.id ((L2.resume env cfg task results now).run ⟨none, o, 0⟩).2.state := by
  refine hI.logView_enrol (exact_resumed task results now).toWf (nothingDue_resumed task results now) ?_ ht
  rw [Outside.note_history, ho]
  exact hI.recorded (hI.resumed task results now hs) rfl

/-- The invariant on all slots. -/
def OnSlots (J : TaskState → List Event → List Routing → Prop) (K : List Event → List Routing → Prop)
    (c : Coordinator) (log : List Routing) : Prop :=
  Keyed c ∧ ∀ tid, LogView J K (ofTask tid log) (c.slot tid).view

theorem onSlots_initial (hI : LogInv A env cfg J K) {c : Coordinator} (h : Initial c) : OnSlots J K c [] :=
  ⟨fun tid => by rw [(h tid).1]; exact keyed_none tid, fun tid => by
    rw [(h tid).slot]; exact hI.logView_fresh (h tid).2⟩

theorem onSlots_putSlot {c : Coordinator} {l : Slot} (h : OnSlots J K c log) (hk : KeyedState tid l.state)
    (hv : LogView J K (ofTask tid log) l.view) : OnSlots J K (c.putSlot tid l) log := by
  refine ⟨keyed_putSlot h.1 hk, fun k => ?_⟩
  by_cases he : k = tid
  · subst he; rw [slot_putSlot_self]; exact hv
  · rw [slot_putSlot_ne he]; exact h.2 k

theorem onSlots_next (hI : LogInv A env cfg J K) {c : Coordinator} {a : Action} (h : OnSlots J K c log)
    (ha : Admissible A env cfg c a) : OnSlots J K (next env cfg c a) (log ++ a.log env c) := by
  obtain ⟨hs, ht⟩ := ha
  cases a with
  | submit task now =>
    have ht := ht task.id
    have hlog : ofTask task.id log = [] := (h.2 task.id).fresh hs.2.2
    rw [next_submit env cfg hs.2] at ht ⊢
    have hv := hI.logView_submit hs.1 hs.2.2 (by simpa [Coordinator.putSlot, Action.now] using ht)
    rw [Action.log, List.append_nil]
    exact onSlots_putSlot h hv.2 (by rw [hlog]; exact hv.1)
  | resume task results now =>
    have ht := ht task.id
    have hlog : ofTask task.id log = [] := (h.2 task.id).fresh hs.2.2
    rw [next_resume env cfg hs.2] at ht ⊢
    have hv := hI.logView_resume hs.1 hs.2.2 (by simpa [Coordinator.putSlot, Action.now] using ht)
    rw [Action.log, List.append_nil]
    exact onSlots_putSlot h hv.2 (by rw [hlog]; exact hv.1)
  | tick batch now =>
    rw [next, Action.coroutine] at ht ⊢
    rcases tick_cases env cfg now batch c h.1 with ⟨e, m, hread, hrun⟩ | ⟨replies, m, c', hread, hrun, hk', hs'⟩
    · rw [hrun, Action.log, hread, List.append_nil]; exact h
    · rw [hrun] at ht ⊢
      refine ⟨hk', fun tid => ?_⟩
      have ht := ht tid
      have hout : c'.outside tid = ((slotTick env cfg (replies.filter fun r => r.taskId = tid) now).run
          (c.slot tid)).2.outside := congrArg Slot.outside (hs' tid)
      rw [hout] at ht
      have hlog : ofTask tid (Action.log env c (.tick batch now)) =
          slotLog env now (replies.filter fun r => r.taskId = tid) (c.slot tid) := by
        rw [Action.log, hread]
        exact (routeLog_slot env now replies { c with mailbox := m } h.1).2 tid
      rw [hs' tid, ofTask_append, hlog]
      exact hI.logView_slotTick (h.1 tid) (h.2 tid) (fun m hm => by simpa using (List.mem_filter.mp hm).2)
        (hs replies (by rw [hread]) tid) ht

end LogInv

/-! ## Invariants of one task -/

/-- `I` relates a registered state to its task's history, `H` is about histories. -/
structure TaskInv (A : Assumptions) (env : Env) (cfg : Config) (I : TaskState → List Event → Prop)
    (H : List Event → Prop) : Prop where
  submitted : ∀ task now, A.submits task → I (TaskState.submitted task now) []
  resumed : ∀ task results now, A.resumes task results → I (TaskState.resumed task results now) []
  move : ∀ {now s o c}, I s o.history → s.Wf → Move env cfg now ⟨s, o⟩ c → A.timely now c.outside.history →
    I c.state c.outside.history
  routed : ∀ {now s h m jobs s'}, I s h → s.Wf → A.reply s h m → Routed env now m s jobs s' →
    I s' (.routed m :: h)
  finalizing : ∀ {now s h} cause, I s h → s.Wf → Finalizable cfg now s cause →
    I s (.finalizing cause (determineFinalStatus s.plan s.results) s :: h)
  recorded : ∀ {s h e}, I s h → e.quiet = true → I s (e :: h)
  history : ∀ {s h}, I s h → H h
  empty : H []
  quiet : ∀ {h e}, H h → e.quiet = true → H (e :: h)

/-- The invariant on a slot. -/
def OnView (I : TaskState → List Event → Prop) (H : List Event → Prop) (v : View) : Prop :=
  (∀ s, v.1 = some s → I s v.2.history) ∧ H v.2.history

namespace TaskInv

variable {A : Assumptions} {env : Env} {cfg : Config} {I : TaskState → List Event → Prop}
  {H : List Event → Prop} {tid : String}

/-- An invariant that does not read the log. -/
theorem logInv (hI : TaskInv A env cfg I H) : LogInv A env cfg (fun s h _ => I s h) fun h _ => H h where
  submitted := hI.submitted
  resumed := hI.resumed
  move := hI.move
  routed h hwf _ := hI.routed h hwf
  finalizing := hI.finalizing
  recorded := hI.recorded
  history := hI.history
  empty := hI.empty
  quiet := hI.quiet

/-- The invariant on all slots. -/
def OnSlots (I : TaskState → List Event → Prop) (H : List Event → Prop) (c : Coordinator) : Prop :=
  Keyed c ∧ ∀ tid, OnView I H (c.slot tid).view

theorem onSlots_of_log {c : Coordinator} {log : List Routing}
    (h : LogInv.OnSlots (fun s h _ => I s h) (fun h _ => H h) c log) : OnSlots I H c :=
  ⟨h.1, fun tid => ⟨(h.2 tid).state, (h.2 tid).told⟩⟩

theorem invariant (hI : TaskInv A env cfg I H) : (runs A env cfg).Inductive (OnSlots I H) where
  init _ h := onSlots_of_log (hI.logInv.onSlots_initial h)
  step c a c' h hs := by
    obtain ⟨ha, rfl⟩ := hs
    have hlog : LogInv.OnSlots (fun s h _ => I s h) (fun h _ => H h) c [] :=
      ⟨h.1, fun tid => ⟨(h.2 tid).1, (h.2 tid).2, fun _ => rfl⟩⟩
    exact onSlots_of_log (hI.logInv.onSlots_next hlog ha)

/-- The invariant holds of every registered task of a reachable coordinator. -/
theorem registered (hI : TaskInv A env cfg I H) {c : Coordinator} (hr : (runs A env cfg).Reachable c)
    {s : TaskState} (hs : c.tasks.get? tid = some s) : I s (c.outside tid).history :=
  ((hI.invariant.reachable c hr).2 tid).1 s hs

/-- What it says about histories holds of every task's history. -/
theorem histories (hI : TaskInv A env cfg I H) {c : Coordinator} (hr : (runs A env cfg).Reachable c)
    (tid : String) : H (c.outside tid).history :=
  ((hI.invariant.reachable c hr).2 tid).2

end TaskInv

/-- Nothing is assumed and nothing is said: what is left is `Keyed`. -/
theorem taskInv_trivial (A : Assumptions) (env : Env) (cfg : Config) :
    TaskInv A env cfg (fun _ _ => True) fun _ => True := by
  constructor <;> intros <;> trivial

theorem routable_of {A : Assumptions} (h : ∀ s hist m, A.reply s hist m) (env : Env) (now : ℚ) :
    ∀ (ms : List Message) (l : Slot), A.routable env now ms l
  | [], _ => trivial
  | m :: ms, _ => ⟨fun s _ => h s _ m, routable_of h env now ms _⟩

theorem routable_any (env : Env) (now : ℚ) (ms : List Message) (l : Slot) : Assumptions.any.routable env now ms l :=
  routable_of (fun _ _ _ => trivial) env now ms l

/-- A tick that finds the inbox empty. -/
theorem allows_quiet (A : Assumptions) (env : Env) (c : Coordinator) (now : ℚ) :
    A.allows env c (.tick (.entries []) now) := by
  intro replies hread tid
  obtain rfl : [] = replies := Except.ok.inj hread
  trivial

/-- A tick that reads one reply. -/
theorem allows_reply {A : Assumptions} {env : Env} {c : Coordinator} {reply : Message} (entryId : String)
    (h : ∀ s, c.tasks.get? reply.taskId = some s → A.reply s (c.outside reply.taskId).history reply) (now : ℚ) :
    A.allows env c (.tick (.entries [{ entryId := entryId, payload := some reply }]) now) := by
  intro replies hread tid
  obtain rfl : (if (c.mailbox.receiver.accept reply.messageId).1 then [reply] else []) = replies :=
    Except.ok.inj hread
  split
  · by_cases ht : reply.taskId = tid
    · subst ht
      rw [List.filter_cons_of_pos (by simp)]
      exact ⟨h, trivial⟩
    · rw [List.filter_cons_of_neg (by simpa using ht)]
      trivial
  · trivial

theorem keyed_of_reachable {A : Assumptions} {env : Env} {cfg : Config} {c : Coordinator}
    (hr : (runs A env cfg).Reachable c) : Keyed c :=
  ((taskInv_trivial A env cfg).invariant.reachable c hr).1

theorem keyed_next {A : Assumptions} {env : Env} {cfg : Config} {c : Coordinator} (hk : Keyed c) {a : Action}
    (ha : Admissible A env cfg c a) : Keyed (next env cfg c a) :=
  ((taskInv_trivial A env cfg).invariant.step c a _ ⟨hk, fun _ => ⟨fun _ _ => trivial, trivial⟩⟩ ⟨ha, rfl⟩).1

/-! ## Replies to the coordinator's own requests -/

/-- The message answers a request of the history: an agent copies the task and
the subtask of the request it replies to. -/
def Answers (h : List Event) (m : Message) : Prop :=
  ∃ channel sub results request t, Event.published channel sub results request t ∈ h ∧
    m.taskId = request.taskId ∧ m.subtaskId = request.subtaskId

/-- Every routed reply answers a request of the coordinator. -/
def Assumptions.Own (A : Assumptions) : Prop := ∀ s h m, A.reply s h m → Answers h m

/-- Only such replies arrive. -/
def Assumptions.ownReplies : Assumptions where
  reply _ := Answers

theorem own_ownReplies : Assumptions.ownReplies.Own := fun _ _ _ h => h

/-- Every request of the history names its subtask, and `s` counts it as published. -/
def Requested (s : TaskState) (h : List Event) : Prop :=
  ∀ channel sub results request t, Event.published channel sub results request t ∈ h →
    request.subtaskId = some sub.id ∧ sub.id ∈ s.published

theorem Requested.mono {s s' : TaskState} {h : List Event} (hr : Requested s h)
    (hp : s.published ⊆ s'.published) : Requested s' h :=
  fun channel sub results request t hm => ⟨(hr channel sub results request t hm).1,
    hp (hr channel sub results request t hm).2⟩

theorem Requested.cons {s : TaskState} {h : List Event} {e : Event} (hr : Requested s h)
    (he : ∀ channel sub results request t, e ≠ .published channel sub results request t) :
    Requested s (e :: h) := fun channel sub results request t hm => by
  rcases List.mem_cons.mp hm with rfl | hm
  · exact absurd rfl (he _ _ _ _ _)
  · exact hr _ _ _ _ _ hm

theorem published_retryOrFail (s : TaskState) (sid reason : String) (now : ℚ) :
    s.published ⊆ (s.retryOrFail sid reason now).published := by
  unfold retryOrFail
  split
  · exact Finset.subset_insert _ _
  · exact subset_rfl

/-- Nothing ever leaves `published`. -/
theorem Move.published_subset {env : Env} {cfg : Config} {now : ℚ} {c c' : Ctx} (hm : Move env cfg now c c') :
    c.state.published ⊆ c'.state.published := by
  cases hm with
  | ready => exact Finset.subset_insert _ _
  | skip => exact Finset.subset_insert _ _
  | expire => exact published_retryOrFail (c.state.dropDeadline _) _ _ _
  | again => exact Finset.subset_insert _ _

theorem Routed.published_subset {env : Env} {now : ℚ} {m : Message} {s s' : TaskState} {jobs : List Job}
    (hr : Routed env now m s jobs s') : s.published ⊆ s'.published := by
  cases hr with
  | ignored => exact subset_rfl
  | refused => exact published_retryOrFail (s.countMessage.dropDeadline _) _ _ _
  | informed => exact subset_rfl

theorem Requested.published {s : TaskState} {o : Outside} (hr : Requested s o.history) (env : Env)
    (cfg : Config) (now : ℚ) (sub : Subtask) :
    Requested (Ctx.published env cfg now ⟨s, o⟩ sub).state
      (Ctx.published env cfg now ⟨s, o⟩ sub).outside.history := by
  intro channel sub' results request t hm
  rcases List.mem_cons.mp hm with he | hm
  · cases he
    exact ⟨rfl, Finset.mem_insert_self _ _⟩
  · exact ⟨(hr _ _ _ _ _ hm).1, Finset.mem_insert_of_mem (hr _ _ _ _ _ hm).2⟩

theorem Requested.move {env : Env} {cfg : Config} {now : ℚ} {s : TaskState} {o : Outside} {c : Ctx}
    (hr : Requested s o.history) (hm : Move env cfg now ⟨s, o⟩ c) : Requested c.state c.outside.history := by
  cases hm with
  | ready => exact hr.published env cfg now _
  | skip => exact hr.mono (Finset.subset_insert _ _)
  | expire => exact hr.mono (published_retryOrFail (s.dropDeadline _) _ _ _)
  | again => exact Requested.published (s := s.dropRetry _) hr env cfg now _

/-! ## A faultless environment -/

/-- Calls never raise; result contents are not inspected. -/
def Env.faultless : Env where
  raises _ _ := false
  uuid h := toString h.length
  utcnow h := toString h.length
  repr _ := ""
  toInt _ := .error (.valueError "invalid literal for int()")
  validators := ⟨fun _ => none, fun _ => none, fun _ => none, fun _ => none⟩

/-- The coordinator after its constructor, every task row in `planning`. -/
def Coordinator.idle : Coordinator where
  tasks := ∅
  mailbox := { receiver := .new 1000 (by decide) }
  outside _ := ⟨[], some { status := .planning, requestedOutputs := [] }⟩
  inflight := 0

theorem initial_idle : Initial Coordinator.idle := fun _ => ⟨rfl, rfl⟩

end MasResearch.L3
