import MasResearch.L3Runs.Histories
import MasResearch.L3Runs.Timers

/-!
# Audited runs

An `Audited` coordinator keeps beside its state every persist job it has queued since
the start and the log of its routed replies. The two lists are ghost: `audited` takes
the transitions of `runs`, and the jobs are those the ticks hand to `_persist_result`.

* `LogInv.onAudited`: invariants of a task and its log hold of every audited run.
* `jobs_of_reachable`: the jobs of a run are the jobs of its log.
* `history_next`, `slot_next_of_none`: what was done for a task stays done, and a task
  that left `_tasks` is left alone from then on.
* `SlotInv.run`: what the steps of a slot and its routed replies keep is kept by every run
  from where the task was started.
-/
namespace MasResearch.L3

open MasResearch.L1 MasResearch.L2 Relation TaskState

/-- A tick up to its `persist_jobs`.
mirrors src/agents/coordinator.py:179-192 -/
def persistJobs (env : Env) (batch : Batch) (now : ℚ) : CoordinatorM (List Job) := do
  let replies ← onMailbox (readInbox batch)
  routeAll env now replies

/-- The jobs a transition queues. -/
def Action.jobs (env : Env) (c : Coordinator) : Action → List Job
  | .tick batch now => match ((persistJobs env batch now).run c).1 with
    | .ok jobs => jobs
    | .error _ => []
  | .submit .. | .resume .. => []

theorem jobs_eq_queued (env : Env) {c : Coordinator} (h : Keyed c) (a : Action) :
    a.jobs env c = queued (a.log env c) := by
  cases a with
  | submit => rfl
  | resume => rfl
  | tick batch now =>
    rw [Action.jobs, Action.log, persistJobs, Exec.run_bind]
    simp only [onMailbox, Exec.run_zoom]
    cases (readInbox batch).run c.mailbox with
    | mk r m =>
      cases r with
      | error e => rfl
      | ok replies =>
        have hjobs := (routeLog_slot env now replies { c with mailbox := m } h).1
        simp only [hjobs]

structure Audited where
  coordinator : Coordinator
  jobs : List Job := []
  log : List Routing := []

def Audited.next (env : Env) (cfg : Config) (p : Audited) (a : Action) : Audited where
  coordinator := L3.next env cfg p.coordinator a
  jobs := p.jobs ++ a.jobs env p.coordinator
  log := p.log ++ a.log env p.coordinator

def audited (A : Assumptions) (env : Env) (cfg : Config) : LTS Audited Action :=
  LTS.guarded (fun p => Initial p.coordinator ∧ p.jobs = [] ∧ p.log = [])
    (fun p => Admissible A env cfg p.coordinator) (Audited.next env cfg)

section

variable {A : Assumptions} {env : Env} {cfg : Config}

/-- What is admitted without the ghosts is admitted with them. -/
theorem admits_audited : ∀ {as : List Action} {p : Audited},
    LTS.Admits (Admissible A env cfg) (L3.next env cfg) p.coordinator as →
      LTS.Admits (fun p => Admissible A env cfg p.coordinator) (Audited.next env cfg) p as
  | [], _, _ => trivial
  | _ :: _, _, h => ⟨h.1, admits_audited h.2⟩

/-- Invariants of a task and its log, on all slots. -/
theorem LogInv.onAudited {J : TaskState → List Event → List Routing → Prop}
    {K : List Event → List Routing → Prop} (hI : LogInv A env cfg J K) :
    (audited A env cfg).Inductive fun p => OnSlots J K p.coordinator p.log where
  init p h := by
    rw [h.2.2]
    exact hI.onSlots_initial h.1
  step p a p' h hs := by
    obtain ⟨ha, rfl⟩ := hs
    exact hI.onSlots_next h ha

/-- The queued jobs are those of the log. -/
theorem jobs_of_reachable {p : Audited} (hr : (audited A env cfg).Reachable p) : p.jobs = queued p.log := by
  have hind : (audited A env cfg).Inductive fun p => Keyed p.coordinator ∧ p.jobs = queued p.log := by
    constructor
    case init =>
      intro p h
      exact ⟨fun tid => by rw [(h.1 tid).1]; exact keyed_none tid, by rw [h.2.1, h.2.2]; rfl⟩
    case step =>
      intro p a p' h hs
      obtain ⟨ha, rfl⟩ := hs
      refine ⟨keyed_next h.1 ha, ?_⟩
      rw [Audited.next, queued_append, ← h.2, jobs_eq_queued env h.1 a]
  exact (hind.reachable p hr).2

/-- Forgetting the ghosts, an audited run is a run. -/
theorem run_of_audited {p p' : Audited} {as : List Action} (hr : (audited A env cfg).Run p as p') :
    (runs A env cfg).Run p.coordinator as p'.coordinator := by
  induction hr with
  | nil => exact .nil _
  | cons hs _ ih =>
    obtain ⟨ha, rfl⟩ := hs
    exact .cons ⟨ha, rfl⟩ ih

theorem reachable_of_audited {p : Audited} (hr : (audited A env cfg).Reachable p) :
    (runs A env cfg).Reachable p.coordinator := by
  obtain ⟨p₀, as, h0, hrun⟩ := hr
  exact ⟨p₀.coordinator, as, h0.1, run_of_audited hrun⟩

/-! ## Tasks do not come back -/

/-- Starting a task leaves a trace. -/
theorem history_enrol (env : Env) (cfg : Config) {now : ℚ} {s : TaskState} (hwf : s.Wf) (hdue : NothingDue now s)
    (who : Registrar) (o : Outside) (g : Int) :
    ((enrol env cfg who s now).run ⟨none, o, g⟩).2.outside.history ≠ [] := by
  obtain ⟨r, l', h1, -, hc⟩ := enrol_spec env cfg hwf hdue who o g
  rw [h1]
  rcases hc with ⟨-, hs⟩ | ⟨-, -, hq⟩
  · obtain ⟨new, -, hh⟩ := slotSteps_history env cfg now hs
    have hh : l'.outside.history = new ++ .registered who :: o.history := hh
    simp [hh]
  · have hs : ReflTransGen (SlotStep env cfg now) (none, _) (none, l'.outside) := recorded_star hq
    obtain ⟨new, -, hh⟩ := slotSteps_history env cfg now hs
    have hh : l'.outside.history = new ++ _ :: o.history := hh
    simp [hh]

theorem history_submit (env : Env) (cfg : Config) (task : Task) (now : ℚ) (o : Outside) :
    ((L2.submit env cfg task now).run ⟨none, o, 0⟩).2.outside.history ≠ [] := by
  obtain ⟨o1, ⟨e, -, hh⟩, ⟨e', hrun⟩ | hrun⟩ := run_submit env cfg task now none o 0
  · rw [hrun]
    simp [hh]
  · rw [hrun]
    exact history_enrol env cfg (exact_submitted task now).toWf (nothingDue_submitted task now) .submit o1 0

theorem history_resume (env : Env) (cfg : Config) (task : Task) (results : Dict String Content) (now : ℚ)
    (o : Outside) : ((L2.resume env cfg task results now).run ⟨none, o, 0⟩).2.outside.history ≠ [] :=
  history_enrol env cfg (exact_resumed task results now).toWf (nothingDue_resumed task results now)
    .recovery (o.note .recovered) 0

/-- The task a transition starts. -/
def Action.starts : Action → Option String
  | .submit task _ => some task.id
  | .resume task _ _ => some task.id
  | .tick .. => none

theorem Assumptions.allows.fresh {c : Coordinator} {a : Action} (ha : A.allows env c a) {tid : String}
    (hs : a.starts = some tid) : Fresh c tid := by
  cases a with
  | submit task now => cases hs; exact ha.2
  | resume task results now => cases hs; exact ha.2
  | tick batch now => cases hs

/-- A transition leaves the tasks alone that it neither starts nor finds registered. -/
theorem slot_next_of_none {c : Coordinator} (hk : Keyed c) {a : Action} (ha : A.allows env c a) {tid : String}
    (hn : c.tasks.get? tid = none) (hst : a.starts ≠ some tid) : (next env cfg c a).slot tid = c.slot tid := by
  cases a with
  | submit task now =>
    have hne : tid ≠ task.id := by rintro rfl; exact hst rfl
    rw [next_submit env cfg ha.2, slot_putSlot_ne hne]
  | resume task results now =>
    have hne : tid ≠ task.id := by rintro rfl; exact hst rfl
    rw [next_resume env cfg ha.2, slot_putSlot_ne hne]
  | tick batch now => exact slot_tick_of_none env cfg hk batch now hn

/-- Something was done for every registered task. -/
def Begun (c : Coordinator) : Prop := ∀ tid s, c.tasks.get? tid = some s → (c.outside tid).history ≠ []

/-- Histories grow, and a task that gets registered has one. -/
theorem history_next {c : Coordinator} (hk : Keyed c) (hb : Begun c) {a : Action} (ha : A.allows env c a)
    {tid : String} (hh : (c.outside tid).history ≠ [] ∨ (next env cfg c a).tasks.get? tid ≠ none) :
    ((next env cfg c a).outside tid).history ≠ [] := by
  have hold : ∀ {c' : Coordinator}, c'.slot tid = c.slot tid →
      ((c.outside tid).history ≠ [] ∨ c'.tasks.get? tid ≠ none) → (c'.outside tid).history ≠ [] := by
    intro c' hslot hh
    rw [outside_of_slot hslot]
    rw [tasks_of_slot hslot] at hh
    rcases hh with hh | hh
    · exact hh
    · obtain ⟨s, hs⟩ := Option.ne_none_iff_exists'.mp hh
      exact hb tid s hs
  cases a with
  | submit task now =>
    rw [next_submit env cfg ha.2] at hh ⊢
    by_cases he : tid = task.id
    · rw [he, outside_putSlot_self]; exact history_submit env cfg task now _
    · exact hold (slot_putSlot_ne he) hh
  | resume task results now =>
    rw [next_resume env cfg ha.2] at hh ⊢
    by_cases he : tid = task.id
    · rw [he, outside_putSlot_self]; exact history_resume env cfg task results now _
    · exact hold (slot_putSlot_ne he) hh
  | tick batch now =>
    cases hs : c.tasks.get? tid with
    | none => exact hold (slot_tick_of_none env cfg hk batch now hs) hh
    | some s =>
      rw [next, Action.coroutine] at hh ⊢
      rcases tick_cases env cfg now batch c hk with ⟨e, m, -, hrun⟩ | ⟨replies, m, c', -, hrun, -, hslot⟩
      · rw [hrun]; exact hb tid s hs
      · obtain ⟨new, hnew, -⟩ := slotTick_history env cfg now (replies.filter fun r => r.taskId = tid)
          (hk tid) (show (c.slot tid).state = some s from hs)
        have hout : (c'.outside tid).history = new ++ (c.outside tid).history :=
          (congrArg (fun l : Slot => l.outside.history) (hslot tid)).trans hnew
        have hne := hb tid s hs
        simp [hrun, hout, hne]

theorem begun_next {c : Coordinator} (hk : Keyed c) (hb : Begun c) {a : Action} (ha : A.allows env c a) :
    Begun (next env cfg c a) := fun _ _ hs => history_next hk hb ha (.inr (by rw [hs]; simp))

/-- The registry is keyed and its tasks were begun. -/
theorem begun_inductive (A : Assumptions) (env : Env) (cfg : Config) :
    (runs A env cfg).Inductive fun c => Keyed c ∧ Begun c where
  init c h := ⟨fun tid => by rw [(h tid).1]; exact keyed_none tid, fun tid s hs => by
    rw [(h tid).1] at hs; cases hs⟩
  step c a c' h hs := by
    obtain ⟨ha, rfl⟩ := hs
    exact ⟨keyed_next h.1 ha, begun_next h.1 h.2 ha.allowed⟩

end

/-! ## What stays true of a started task -/

/-- `V` is kept by the steps of a slot, at any clock reading, and by the replies routed to it. -/
structure SlotInv (env : Env) (cfg : Config) (V : View → Prop) : Prop where
  step : ∀ {now v v'}, V v → SlotStep env cfg now v v' → V v'
  routed : ∀ {now m s o jobs s'}, V (some s, o) → Routed env now m s jobs s' → V (some s', o.note (.routed m))

namespace SlotInv

variable {A : Assumptions} {env : Env} {cfg : Config} {V : View → Prop} {now : ℚ} {tid : String}

theorem steps (hV : SlotInv env cfg V) {v v' : View} (hs : ReflTransGen (SlotStep env cfg now) v v') (hv : V v) :
    V v' := Exec.stable_star (P := V) (fun _ _ hv h => hV.step hv h) hs hv

theorem routes (hV : SlotInv env cfg V) (now : ℚ) : ∀ (replies : List Message) {l : Slot}, KeyedState tid l.state →
    V l.view → ∃ jobs l', (slotRoutes env now replies).run l = (.ok jobs, l') ∧ KeyedState tid l'.state ∧ V l'.view
  | [], l, hk, hv => ⟨[], l, rfl, hk, hv⟩
  | m :: replies, l, hk, hv => by
    obtain ⟨jobs, l1, h1, -, hk1, -, hc⟩ := run_routeTo env now hk m
    have hv1 : V l1.view := by
      rcases hc with ⟨-, rfl⟩ | ⟨s, s', hs, hs', ho, hr⟩
      · exact hv
      · rw [Slot.view, hs', ho]
        rw [Slot.view, hs] at hv
        exact hV.routed hv hr
    obtain ⟨more, l2, h2, hk2, hv2⟩ := hV.routes now replies hk1 hv1
    exact ⟨jobs ++ more, l2, by simp only [slotRoutes, Exec.run_bind, h1, h2, Exec.run_pure], hk2, hv2⟩

theorem slotTick (hV : SlotInv env cfg V) {l : Slot} (hk : KeyedState tid l.state) (hv : V l.view)
    (replies : List Message) (now : ℚ) : V ((L3.slotTick env cfg replies now).run l).2.view := by
  obtain ⟨jobs, l1, h1, hk1, hv1⟩ := hV.routes now replies hk hv
  obtain ⟨l2, h2, hs2, -⟩ := run_slotTick env cfg now h1 hk1
  rw [h2]
  exact hV.steps hs2 hv1

/-- **Step.** -/
theorem next (hV : SlotInv env cfg V) {c : Coordinator} {a : Action} (hk : Keyed c) (ha : A.allows env c a)
    (hh : (c.outside tid).history ≠ []) (hv : V (c.slot tid).view) : V ((L3.next env cfg c a).slot tid).view := by
  cases a with
  | submit task now =>
    have hne : tid ≠ task.id := by rintro rfl; exact hh ha.2.2
    rwa [next_submit env cfg ha.2, slot_putSlot_ne hne]
  | resume task results now =>
    have hne : tid ≠ task.id := by rintro rfl; exact hh ha.2.2
    rwa [next_resume env cfg ha.2, slot_putSlot_ne hne]
  | tick batch now =>
    rw [L3.next, Action.coroutine]
    rcases tick_cases env cfg now batch c hk with ⟨e, m, -, hrun⟩ | ⟨replies, m, c', -, hrun, -, hslot⟩
    · rw [hrun]; exact hv
    · rw [hrun, hslot tid]
      exact hV.slotTick (hk tid) hv _ now

/-- **Run.** -/
theorem run (hV : SlotInv env cfg V) {c c' : Coordinator} {as : List Action}
    (hr : (runs A env cfg).Run c as c') (hk : Keyed c) (hb : Begun c) (hh : (c.outside tid).history ≠ [])
    (hv : V (c.slot tid).view) : V (c'.slot tid).view := by
  induction hr with
  | nil => exact hv
  | cons hs _ ih =>
    obtain ⟨ha, rfl⟩ := hs
    exact ih (keyed_next hk ha) (begun_next hk hb ha.allowed) (history_next hk hb ha.allowed (.inl hh))
      (hV.next hk ha.allowed hh hv)

end SlotInv

/-! ## A run -/

/-- `lecture` with a summary. -/
def course : Task := { lecture with requestedOutputs := [.f1Transcribe, .f3Summarize] }

/-- The transcript of `course` has arrived. -/
def taught : Audited :=
  [.submit course 0, .tick (.entries [{ entryId := "1-0", payload := some transcript }]) 1].foldl
    (Audited.next Env.faultless {}) { coordinator := Coordinator.idle }

theorem reachable_taught : (audited .any Env.faultless {}).Reachable taught :=
  LTS.reachable_foldl ⟨initial_idle, rfl, rfl⟩
    ⟨⟨⟨trivial, rfl, rfl⟩, fun _ => trivial⟩,
      ⟨fun _ _ _ => routable_any _ _ _ _, fun _ => trivial⟩, trivial⟩

end MasResearch.L3
