import MasResearch.L3Runs.Gauge

/-!
# Startup: recovery beside the first requests

`lifespan` starts `coordinator.run()` as a task of its own and serves at once, so
`create_task` requests run beside `_recover` (src/main.py:225-238). Each transition
is what happens between two awaits that let the other side in:

* `create_task`: the transaction that commits the PLANNING row, the `set_status` of
  `submit` outside the lock, and the registration under the lock;
* `run`: the query of `load_in_flight` outside the lock, the loop over the loaded
  tasks under the lock, then ticks.

`Once` says of a task's history that a registration finds no earlier registration
and no earlier request; `Untouched` that it may still come.
-/
namespace MasResearch.L3

open MasResearch.L1 MasResearch.L2 Relation TaskState

/-- Where a `create_task` request of this process stands: its row is committed,
`set_status` has returned, or it is over. -/
inductive Stage where
  | committed (task : Task)
  | running (task : Task)
  | over

/-- Where `run` stands: before the query of `load_in_flight`, between the query and
the lock, in its loop, or ended by what a resumption raised. -/
inductive Phase where
  | starting
  | loaded (items : List RecoveredTask)
  | looping
  | dead

structure Startup where
  coordinator : Coordinator
  stage : String → Option Stage
  phase : Phase

inductive StartupAction where
  | create (task : Task)
  | setRunning (tid : String)
  | register (tid : String) (now : ℚ)
  | load (items : List RecoveredTask)
  | resumeAll (now : ℚ)
  | tick (batch : Batch) (now : ℚ)

/-- mirrors src/agents/recovery.py:41 -/
def recoverableStatuses : List TaskStatus := [.planning, .running]

/-- The row of the task is one that `find_by_status` returns. -/
def InFlight (c : Coordinator) (tid : String) : Prop :=
  ∃ row, (c.outside tid).row = some row ∧ row.status ∈ recoverableStatuses

namespace Startup

/-- mirrors src/db/repos.py:27-35 -/
def commitRow (c : Coordinator) (task : Task) : Coordinator :=
  { c with outside := Function.update c.outside task.id { c.outside task.id with
      row := some { status := .planning, requestedOutputs := task.requestedOutputs } } }

def next (env : Env) (cfg : Config) (s : Startup) : StartupAction → Startup
  | .create task =>
    { s with coordinator := commitRow s.coordinator task
             stage := Function.update s.stage task.id (some (.committed task)) }
  | .setRunning tid =>
    match s.stage tid with
    | some (.committed task) =>
      match (forTask tid (storeCall (setStatus env .running))).run s.coordinator with
      | (.ok _, c) => { s with coordinator := c, stage := Function.update s.stage tid (some (.running task)) }
      | (.error _, c) => { s with coordinator := c, stage := Function.update s.stage tid (some .over) }
    | _ => s
  | .register tid now =>
    match s.stage tid with
    | some (.running task) =>
      { s with
        coordinator := ((forTask tid (enrol env cfg .submit (TaskState.submitted task now) now)).run
          s.coordinator).2
        stage := Function.update s.stage tid (some .over) }
    | _ => s
  | .load items => { s with phase := .loaded items }
  | .resumeAll now =>
    match s.phase with
    | .loaded items =>
      match (recover env cfg items now).run s.coordinator with
      | (.ok _, c) => { s with coordinator := c, phase := .looping }
      | (.error _, c) => { s with coordinator := c, phase := .dead }
    | _ => s
  | .tick batch now => { s with coordinator := ((tick env cfg batch now).run s.coordinator).2 }

/-- The ids of `create_task` are new (`uuid4`): there is no row and nothing was done
for them. `load_in_flight` returns the tasks whose rows are in flight, each once. -/
def Enabled (s : Startup) : StartupAction → Prop
  | .create task => s.stage task.id = none ∧ s.coordinator.outside task.id = ⟨[], none⟩
  | .setRunning tid => ∃ task, s.stage tid = some (.committed task)
  | .register tid _ => ∃ task, s.stage tid = some (.running task)
  | .load items => s.phase = .starting ∧ (items.map fun item => item.task.id).Nodup ∧
      ∀ tid, (∃ item ∈ items, item.task.id = tid) ↔ InFlight s.coordinator tid
  | .resumeAll _ => ∃ items, s.phase = .loaded items
  | .tick _ _ => s.phase = .looping

/-- A process that has just started: no request yet, nothing registered, the gauge at 0. -/
structure Fresh (s : Startup) : Prop where
  initial : Initial s.coordinator
  inflight : s.coordinator.inflight = 0
  stage : ∀ tid, s.stage tid = none
  phase : s.phase = .starting

/-- The transitions that also meet `guard`. -/
def system (guard : Startup → StartupAction → Prop) (env : Env) (cfg : Config) : LTS Startup StartupAction :=
  LTS.guarded Fresh (fun s a => Enabled s a ∧ guard s a) (next env cfg)

end Startup

/-! ## Histories with one registration -/

/-- No registration finds an earlier registration or request. -/
def Once (h : List Event) : Prop := ∀ who h', (Event.registered who :: h') <:+ h → ∀ e ∈ h', e.entry = false

/-- The task is not registered and never was. -/
def Untouched (c : Coordinator) (tid : String) : Prop :=
  c.tasks.get? tid = none ∧ ∀ e ∈ (c.outside tid).history, e.entry = false

theorem once_of_no_entry {h : List Event} (hn : ∀ e ∈ h, e.entry = false) : Once h := by
  intro who h' hs
  have := hn _ (hs.mem List.mem_cons_self)
  cases this

theorem Once.append {h new : List Event} (ho : Once h) (hn : ∀ e ∈ new, ∀ who, e ≠ Event.registered who) :
    Once (new ++ h) := by
  intro who h' hs
  induction new with
  | nil => exact ho who h' hs
  | cons e new ih =>
    rw [List.cons_append, List.suffix_cons_iff] at hs
    rcases hs with he | hs
    · exact absurd (List.cons.inj he).1.symm (hn e List.mem_cons_self who)
    · exact ih (fun x hx => hn x (List.mem_cons_of_mem _ hx)) hs

theorem once_registered {h : List Event} (hn : ∀ e ∈ h, e.entry = false) (who : Registrar) :
    Once (.registered who :: h) := by
  intro who' h' hs
  rcases List.suffix_cons_iff.mp hs with he | hs
  · rw [(List.cons.inj he).2]; exact hn
  · exact once_of_no_entry hn who' h' hs

/-- The task is live only if it was registered. -/
def Known (st : Option TaskState) (h : List Event) : Prop :=
  st.isSome = true → ∃ who, Event.registered who ∈ h

section

variable {env : Env} {cfg : Config} {now : ℚ}

theorem recorded_history {o o' : Outside} (h : ReflTransGen Recorded o o') :
    ∃ new, (∀ e ∈ new, ∀ who, e ≠ Event.registered who) ∧ (∀ e ∈ new, e.entry = false) ∧
      o'.history = new ++ o.history := by
  induction h with
  | refl => exact ⟨[], by simp, by simp, rfl⟩
  | tail _ hq ih =>
    obtain ⟨new, hw, hn, hh⟩ := ih
    obtain ⟨e, he, hh'⟩ := hq
    refine ⟨e :: new, List.forall_mem_cons.mpr ⟨?_, hw⟩, List.forall_mem_cons.mpr ⟨?_, hn⟩,
      by rw [hh', hh]; rfl⟩
    · rintro who rfl; cases he
    · cases e <;> first | rfl | cases he

/-- Registering an untouched task registers it once. -/
theorem once_enrol (env : Env) (cfg : Config) {s : TaskState} (hwf : s.Wf) (hdue : NothingDue now s)
    (who : Registrar) {o : Outside} (hn : ∀ e ∈ o.history, e.entry = false) (g : Int) :
    Once ((enrol env cfg who s now).run ⟨none, o, g⟩).2.outside.history ∧
      Known ((enrol env cfg who s now).run ⟨none, o, g⟩).2.state
        ((enrol env cfg who s now).run ⟨none, o, g⟩).2.outside.history := by
  obtain ⟨r, l', h1, -, hc⟩ := enrol_spec env cfg hwf hdue who o g
  rw [h1]
  rcases hc with ⟨-, hs⟩ | ⟨-, hst, hq⟩
  · obtain ⟨new, hw, hh⟩ := slotSteps_history env cfg now hs
    have hh : l'.outside.history = new ++ .registered who :: o.history := hh
    refine ⟨?_, fun _ => ⟨who, ?_⟩⟩ <;> rw [show (r, l').2 = l' from rfl, hh]
    · exact (once_registered hn who).append hw
    · simp
  · obtain ⟨new, hw, -, hh⟩ := recorded_history hq
    refine ⟨?_, fun hs => ?_⟩
    · rw [show (r, l').2 = l' from rfl, hh]
      exact Once.append (once_of_no_entry (List.forall_mem_cons.mpr ⟨rfl, hn⟩)) hw
    · rw [show (r, l').2 = l' from rfl, hst] at hs; cases hs

/-- A tick registers nothing. -/
theorem once_tick (env : Env) (cfg : Config) (now : ℚ) {c : Coordinator} (hk : Keyed c) (batch : Batch)
    {tid : String} (ho : Once (c.outside tid).history) (hl : Known (c.tasks.get? tid) (c.outside tid).history) :
    Once ((((tick env cfg batch now).run c).2).outside tid).history ∧
      Known (((tick env cfg batch now).run c).2.tasks.get? tid)
        ((((tick env cfg batch now).run c).2).outside tid).history := by
  have hnext : ((tick env cfg batch now).run c).2 = next env cfg c (.tick batch now) := rfl
  cases hs : c.tasks.get? tid with
  | none =>
    have hslot := slot_tick_of_none env cfg hk batch now hs
    have h1 : (next env cfg c (.tick batch now)).tasks.get? tid = c.tasks.get? tid := tasks_of_slot hslot
    have h2 : (next env cfg c (.tick batch now)).outside tid = c.outside tid := outside_of_slot hslot
    rw [hnext, h1, h2]; exact ⟨ho, hl⟩
  | some s =>
    rcases tick_cases env cfg now batch c hk with ⟨e, m, -, hrun⟩ | ⟨replies, m, c', -, hrun, -, hslot⟩
    · rw [hrun]; exact ⟨ho, hl⟩
    · obtain ⟨new, hh, -, hw⟩ := slotTick_history env cfg now (replies.filter fun r => r.taskId = tid)
        (l := c.slot tid) (hk tid) hs
      have hout : (c'.outside tid).history = new ++ (c.outside tid).history :=
        (congrArg (fun l => l.outside.history) (hslot tid)).trans hh
      rw [hrun]
      dsimp only
      rw [hout]
      refine ⟨ho.append hw, fun _ => ?_⟩
      obtain ⟨who, hm⟩ := hl (by rw [hs]; rfl)
      exact ⟨who, List.mem_append_right _ hm⟩

end

end MasResearch.L3
