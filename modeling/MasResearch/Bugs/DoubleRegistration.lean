import MasResearch.L3Runs.Startup
import MasResearch.L3Runs.Timers

/-!
# A task submitted during startup is resumed as well

`_recover` reads the in-flight rows before it takes the lock and `_resume` registers
whatever it was given (src/agents/coordinator.py:144-176). The rows of this process's
own `create_task` requests are in flight from their commit on, so a request whose
transaction commits before the query of `load_in_flight` is loaded too; `_resume` then
replaces the `TaskState` that `submit` registered (or the other way round), requests
its roots again and counts the task twice. The lock that both sides take for the
registration (src/agents/coordinator.py:128,149) shows that they are meant to exclude
each other, and recovery is for tasks "that were still in flight"
(src/agents/recovery.py:3-4) when the previous process ended.

Counterexample (`submitted_and_resumed`): commit, query, `set_status`, registration by
`submit`, resumption.

`registered_once`: in every run in which the query of `load_in_flight` finds no
in-flight row of a `create_task` request of this process, every task is registered
once and counted once.
-/
namespace MasResearch.Bugs.DoubleRegistration

open MasResearch.L1 MasResearch.L2 MasResearch.L3 Relation TaskState

/-- No registration of a task follows an earlier registration or request, so none
replaces a live state; live tasks were registered; the gauge counts each once. -/
structure RegisteredOnce (c : Coordinator) : Prop where
  once : ∀ tid, Once (c.outside tid).history
  known : ∀ tid, Known (c.tasks.get? tid) (c.outside tid).history
  gauge : c.inflight = c.tasks.size

/-! ## Counterexample -/

/-- A process started on an empty database. -/
def empty : Startup where
  coordinator := { Coordinator.idle with outside := fun _ => ⟨[], none⟩ }
  stage _ := none
  phase := .starting

def trace : List StartupAction :=
  [.create lecture, .load [⟨lecture, ∅⟩], .setRunning "t1", .register "t1" 0, .resumeAll 1]

def final : Startup := trace.foldl (Startup.next Env.faultless {}) empty

def isRequest : Event → Bool
  | .published .. => true
  | _ => false

theorem reachable_final : (Startup.system (fun _ _ => True) Env.faultless {}).Reachable final := by
  refine LTS.reachable_foldl ⟨fun _ => ⟨rfl, rfl⟩, rfl, fun _ => rfl, rfl⟩
    ⟨⟨⟨rfl, rfl⟩, trivial⟩, ⟨⟨rfl, by decide, fun tid => ?_⟩, trivial⟩, ⟨⟨lecture, rfl⟩, trivial⟩,
      ⟨⟨lecture, rfl⟩, trivial⟩, ⟨⟨_, rfl⟩, trivial⟩, trivial⟩
  -- the only row is the one just committed
  by_cases ht : tid = "t1"
  · subst ht
    exact iff_of_true ⟨_, List.mem_singleton.mpr rfl, rfl⟩
      ⟨{ status := .planning, requestedOutputs := [.f1Transcribe] }, rfl, by decide⟩
  · refine iff_of_false ?_ ?_
    · rintro ⟨item, hi, he⟩
      rw [List.mem_singleton.mp hi] at he
      exact ht he.symm
    · rintro ⟨row, hrow, -⟩
      have hnone :
          ((Startup.next Env.faultless {} empty (.create lecture)).coordinator.outside tid).row = none := by
        show (Function.update empty.coordinator.outside "t1" _ tid).row = none
        rw [Function.update_of_ne ht]; rfl
      rw [hnone] at hrow; cases hrow

/-- **Counterexample.** -/
theorem submitted_and_resumed :
    (Startup.system (fun _ _ => True) Env.faultless {}).Reachable final ∧
      ((final.coordinator.outside "t1").history.filter isRequest).length = 2 ∧
      final.coordinator.inflight = 2 ∧ final.coordinator.tasks.size = 1 ∧
      ¬ RegisteredOnce final.coordinator := by
  have hgauge : final.coordinator.inflight = 2 := by decide +kernel
  have hsize : final.coordinator.tasks.size = 1 := by decide +kernel
  refine ⟨reachable_final, by decide +kernel, hgauge, hsize, fun h => ?_⟩
  have := h.gauge
  rw [hgauge, hsize] at this
  cases this

/-! ## When every task is registered once -/

/-- When `load_in_flight` queries the rows, no `create_task` request of this process
has an in-flight row. -/
def unmixed (s : Startup) : StartupAction → Prop
  | .load _ => ∀ tid, InFlight s.coordinator tid → s.stage tid = none
  | _ => True

/-- The task may still be registered, by a request or by the recovery under way. -/
inductive Open (s : Startup) (tid : String) : Prop
  | request (task : Task) (h : s.stage tid = some (.committed task) ∨ s.stage tid = some (.running task))
  | early (hs : s.stage tid = none) (hp : s.phase = .starting ∨ ∃ items, s.phase = .loaded items)

structure Inv (s : Startup) : Prop where
  gauged : Gauged 0 s.coordinator
  once : ∀ tid, Once (s.coordinator.outside tid).history
  known : ∀ tid, Known (s.coordinator.tasks.get? tid) (s.coordinator.outside tid).history
  ids : ∀ tid task, s.stage tid = some (.committed task) ∨ s.stage tid = some (.running task) → task.id = tid
  opened : ∀ tid, Open s tid → Untouched s.coordinator tid
  loaded : ∀ items, s.phase = .loaded items → (items.map fun item => item.task.id).Nodup ∧
    ∀ item ∈ items, s.stage item.task.id = none ∧ (s.coordinator.outside item.task.id).row.isSome = true

theorem Inv.registeredOnce {s : Startup} (h : Inv s) : RegisteredOnce s.coordinator :=
  ⟨h.once, h.known, by rw [h.gauged.inflight, zero_add]⟩

theorem inv_fresh {s : Startup} (h : s.Fresh) : Inv s where
  gauged := h.inflight ▸ gauged_initial h.initial
  once tid := once_of_no_entry (by rw [(h.initial tid).2]; simp)
  known tid := by rw [(h.initial tid).1]; exact fun hs => (by cases hs)
  ids tid task hs := by rcases hs with hs | hs <;> rw [h.stage] at hs <;> cases hs
  opened tid _ := ⟨(h.initial tid).1, by rw [(h.initial tid).2]; simp⟩
  loaded items hp := by rw [h.phase] at hp; cases hp

section

variable {env : Env} {cfg : Config} {now : ℚ} {s : Startup} {tid : String}

/-- A transition of one request touches its own task only. -/
theorem Inv.request (h : Inv s) {c : Coordinator} {st : Stage} (hg : Gauged 0 c)
    (hne : ∀ k, k ≠ tid → c.slot k = s.coordinator.slot k) (ho : Once (c.outside tid).history)
    (hk : Known (c.tasks.get? tid) (c.outside tid).history)
    (hid : ∀ task, st = .committed task ∨ st = .running task → task.id = tid)
    (hopen : ∀ task, st = .committed task ∨ st = .running task → Untouched c tid)
    (hout : s.stage tid ≠ none ∨ (s.coordinator.outside tid).row = none) :
    Inv { s with coordinator := c, stage := Function.update s.stage tid (some st) } := by
  have htask : ∀ k, k ≠ tid → c.tasks.get? k = s.coordinator.tasks.get? k := fun k hn =>
    tasks_of_slot (hne k hn)
  have hside : ∀ k, k ≠ tid → c.outside k = s.coordinator.outside k := fun k hn =>
    outside_of_slot (hne k hn)
  constructor
  case gauged => exact hg
  case once =>
    intro k
    by_cases hkt : k = tid
    · rw [hkt]; exact ho
    · have := h.once k; rwa [← hside k hkt] at this
  case known =>
    intro k
    by_cases hkt : k = tid
    · rw [hkt]; exact hk
    · have := h.known k; rwa [← hside k hkt, ← htask k hkt] at this
  case ids =>
    intro k task hs
    by_cases hkt : k = tid
    · subst hkt
      simp only [Function.update_self, Option.some.injEq] at hs
      exact hid task hs
    · simp only [Function.update_of_ne hkt] at hs
      exact h.ids k task hs
  case opened =>
    intro k hko
    by_cases hkt : k = tid
    · subst hkt
      cases hko with
      | request task hs =>
        simp only [Function.update_self, Option.some.injEq] at hs
        exact hopen task hs
      | early hs => simp only [Function.update_self] at hs; cases hs
    · have hold : Open s k := by
        cases hko with
        | request task hs => simp only [Function.update_of_ne hkt] at hs; exact .request task hs
        | early hs hp => simp only [Function.update_of_ne hkt] at hs; exact .early hs hp
      have := h.opened k hold
      rwa [Untouched, ← htask k hkt, ← hside k hkt] at this
  case loaded =>
    intro items hp
    obtain ⟨hd, hi⟩ := h.loaded items hp
    refine ⟨hd, fun item hm => ?_⟩
    obtain ⟨hs, hrow⟩ := hi item hm
    have hkt : item.task.id ≠ tid := by
      rintro rfl
      rcases hout with hn | hn
      · exact hn hs
      · rw [hn] at hrow; cases hrow
    exact ⟨by simp only [Function.update_of_ne hkt]; exact hs, by rw [hside _ hkt]; exact hrow⟩

theorem Inv.create (h : Inv s) {task : Task} (he : s.Enabled (.create task)) :
    Inv (Startup.next env cfg s (.create task)) := by
  obtain ⟨hs, hnew⟩ := he
  have hrow : (s.coordinator.outside task.id).row = none := by rw [hnew]
  -- a registered task has a history
  have hun : Untouched s.coordinator task.id := by
    have hk := h.known task.id
    rw [hnew] at hk
    refine ⟨?_, by rw [hnew]; simp⟩
    by_contra hne
    obtain ⟨who, hm⟩ := hk (Option.isSome_iff_ne_none.mpr hne)
    cases hm
  have hself : ((Startup.commitRow s.coordinator task).outside task.id).history =
      (s.coordinator.outside task.id).history := by simp [Startup.commitRow]
  refine h.request ⟨h.gauged.keyed, h.gauged.inflight⟩ (fun k hk => ?_) ?_ ?_ ?_ ?_ (.inr hrow)
  · simp only [Coordinator.slot, Startup.commitRow, Function.update_of_ne hk]
  · rw [hself]; exact h.once task.id
  · rw [hself]; exact h.known task.id
  · rintro t (ht | ht) <;> cases ht; rfl
  · exact fun _ _ => ⟨hun.1, by rw [hself]; exact hun.2⟩

/-- The slot of an untouched task at the start of a call. -/
theorem slot_of_untouched {c : Coordinator} (h : Untouched c tid) : c.slot tid = ⟨none, c.outside tid, 0⟩ := by
  rw [Coordinator.slot, h.1]

theorem Inv.setRunning (h : Inv s) (he : s.Enabled (.setRunning tid)) :
    Inv (Startup.next env cfg s (.setRunning tid)) := by
  obtain ⟨task, hs⟩ := he
  have hun := h.opened tid (.request task (.inl hs))
  have hid := h.ids tid task (.inl hs)
  obtain ⟨r, o, h1, hq⟩ := recorded_setStatus env .running (s.coordinator.outside tid)
  have hst : (storeCall (setStatus env .running)).run (s.coordinator.slot tid) = (r, ⟨none, o, 0⟩) := by
    rw [slot_of_untouched hun, storeCall, Exec.run_zoom, h1]
  -- the call records its outcome and changes nothing else
  obtain ⟨new, -, hn, hh⟩ := recorded_history (.single hq)
  have hun' : Untouched (s.coordinator.putSlot tid ⟨none, o, 0⟩) tid := by
    refine ⟨tasks_putSlot_self, ?_⟩
    rw [outside_putSlot_self, hh]
    intro e hm
    rcases List.mem_append.mp hm with hm | hm
    · exact hn e hm
    · exact hun.2 e hm
  have hg : Gauged 0 (s.coordinator.putSlot tid ⟨none, o, 0⟩) := gauged_putSlot h.gauged
    ⟨keyed_none tid, by rw [slot_of_untouched hun]; simp⟩
  have key : ∀ st : Stage, (∀ t, st = .committed t ∨ st = .running t → t.id = tid) →
      Inv { s with coordinator := s.coordinator.putSlot tid ⟨none, o, 0⟩
                   stage := Function.update s.stage tid (some st) } := fun st hst =>
    h.request hg (fun k hk => slot_putSlot_ne hk) (once_of_no_entry hun'.2)
      (by rw [tasks_putSlot_self]; exact fun hs => (by cases hs)) hst (fun _ _ => hun')
      (.inl (by rw [hs]; simp))
  simp only [Startup.next, hs, run_forTask hst]
  cases r with
  | ok _ => exact key _ (by rintro t (ht | ht) <;> cases ht; exact hid)
  | error _ => exact key _ (by rintro t (ht | ht) <;> cases ht)

theorem Inv.register (h : Inv s) (he : s.Enabled (.register tid now)) :
    Inv (Startup.next env cfg s (.register tid now)) := by
  obtain ⟨task, hs⟩ := he
  have hun := h.opened tid (.request task (.inr hs))
  obtain rfl := h.ids tid task (.inr hs)
  have hb := balanced_enrol env cfg (exact_submitted task now).toWf
    (nothingDue_submitted task now) .submit (s.coordinator.outside task.id) 0
  have ho := once_enrol env cfg (exact_submitted task now).toWf
    (nothingDue_submitted task now) .submit hun.2 0
  simp only [Startup.next, hs]
  rw [← slot_of_untouched hun] at hb ho
  generalize hr : (enrol env cfg .submit (TaskState.submitted task now) now).run (s.coordinator.slot task.id) = r
    at hb ho
  obtain ⟨r, l⟩ := r
  rw [run_forTask hr]
  refine h.request (gauged_putSlot h.gauged hb) (fun k hk => slot_putSlot_ne hk) ?_ ?_ ?_ ?_
    (.inl (by rw [hs]; simp))
  · rw [outside_putSlot_self]; exact ho.1
  · rw [tasks_putSlot_self, outside_putSlot_self]; exact ho.2
  · rintro t (ht | ht) <;> cases ht
  · rintro t (ht | ht) <;> cases ht

/-- The loop of `_recover` over untouched tasks registers each at most once and
leaves the other tasks alone. -/
theorem once_recover (env : Env) (cfg : Config) (now : ℚ) : ∀ (items : List RecoveredTask) (c : Coordinator),
    Gauged 0 c → (items.map fun item => item.task.id).Nodup → (∀ item ∈ items, Untouched c item.task.id) →
    (∀ k, Once (c.outside k).history ∧ Known (c.tasks.get? k) (c.outside k).history) →
    Gauged 0 ((recover env cfg items now).run c).2 ∧
      (∀ k, Once ((((recover env cfg items now).run c).2).outside k).history ∧
        Known ((((recover env cfg items now).run c).2).tasks.get? k)
          ((((recover env cfg items now).run c).2).outside k).history) ∧
      ∀ k, (∀ item ∈ items, k ≠ item.task.id) → (((recover env cfg items now).run c).2).slot k = c.slot k
  | [], c, hg, _, _, ho => ⟨hg, ho, fun _ _ => rfl⟩
  | item :: items, c, hg, hd, hun, ho => by
    rw [List.map_cons, List.nodup_cons] at hd
    have hne : ∀ other ∈ items, other.task.id ≠ item.task.id := fun other hm he =>
      hd.1 (he ▸ List.mem_map_of_mem (f := fun i : RecoveredTask => i.task.id) hm)
    have huni := hun item List.mem_cons_self
    have hb := balanced_resume env cfg item.task item.results now (c.outside item.task.id) 0
    have hoi := once_enrol env cfg (exact_resumed item.task item.results now).toWf
      (nothingDue_resumed item.task item.results now) .recovery
      (o := (c.outside item.task.id).note .recovered) (List.forall_mem_cons.mpr ⟨rfl, huni.2⟩) 0
    have hrun : (resume env cfg item.task item.results now).run ⟨none, c.outside item.task.id, 0⟩ =
        (enrol env cfg .recovery (TaskState.resumed item.task item.results now) now).run
          ⟨none, (c.outside item.task.id).note .recovered, 0⟩ := rfl
    rw [← hrun] at hoi
    rw [← slot_of_untouched huni] at hb hoi
    generalize hr : (resume env cfg item.task item.results now).run (c.slot item.task.id) = r at hb hoi
    obtain ⟨r, l⟩ := r
    have hg' := gauged_putSlot hg hb
    have hframe : ∀ k, k ≠ item.task.id → (c.putSlot item.task.id l).slot k = c.slot k := fun k hk =>
      slot_putSlot_ne hk
    have ho' : ∀ k, Once ((c.putSlot item.task.id l).outside k).history ∧
        Known ((c.putSlot item.task.id l).tasks.get? k) ((c.putSlot item.task.id l).outside k).history := by
      intro k
      by_cases hk : k = item.task.id
      · rw [hk, tasks_putSlot_self, outside_putSlot_self]; exact hoi
      · rw [tasks_of_slot (hframe k hk), outside_of_slot (hframe k hk)]; exact ho k
    cases r with
    | error e =>
      rw [recover, Exec.forEach, Exec.run_bind_error (run_forTask hr)]
      exact ⟨hg', ho', fun k hk => hframe k (hk item List.mem_cons_self)⟩
    | ok _ =>
      have hcons : (recover env cfg (item :: items) now).run c =
          (recover env cfg items now).run (c.putSlot item.task.id l) := by
        rw [recover, Exec.forEach, Exec.run_bind_ok (run_forTask hr)]; rfl
      rw [hcons]
      have hun' : ∀ other ∈ items, Untouched (c.putSlot item.task.id l) other.task.id := by
        intro other hm
        rw [Untouched, tasks_of_slot (hframe _ (hne other hm)), outside_of_slot (hframe _ (hne other hm))]
        exact hun other (List.mem_cons_of_mem _ hm)
      obtain ⟨hg2, ho2, hf2⟩ := once_recover env cfg now items (c.putSlot item.task.id l) hg' hd.2 hun' ho'
      refine ⟨hg2, ho2, fun k hk => ?_⟩
      rw [hf2 k fun other hm => hk other (List.mem_cons_of_mem _ hm), hframe k (hk item List.mem_cons_self)]

theorem Inv.resumeAll (h : Inv s) (he : s.Enabled (.resumeAll now)) :
    Inv (Startup.next env cfg s (.resumeAll now)) := by
  obtain ⟨items, hp⟩ := he
  obtain ⟨hd, hi⟩ := h.loaded items hp
  obtain ⟨hg, ho, hframe⟩ := once_recover env cfg now items s.coordinator h.gauged hd
    (fun item hm => h.opened _ (.early (hi item hm).1 (.inr ⟨items, hp⟩))) fun k => ⟨h.once k, h.known k⟩
  simp only [Startup.next, hp]
  generalize (recover env cfg items now).run s.coordinator = r at hg ho hframe
  obtain ⟨r, c⟩ := r
  have key : ∀ p : Phase, p ≠ .starting → (∀ items, p ≠ .loaded items) →
      Inv { s with coordinator := c, phase := p } := by
    intro p hp1 hp2
    refine ⟨hg, fun k => (ho k).1, fun k => (ho k).2, h.ids, fun k hk => ?_, fun its hq => absurd hq (hp2 its)⟩
    -- a request under way is none of the loaded tasks
    have hout : (∀ item ∈ items, k ≠ item.task.id) ∧ Open s k := by
      cases hk with
      | request task hs =>
        refine ⟨fun item hm he => ?_, .request task hs⟩
        have := (hi item hm).1
        rw [← he] at this
        rcases hs with hs | hs <;> · rw [show s.stage k = _ from hs] at this; cases this
      | early _ hq =>
        rcases hq with hq | ⟨its, hq⟩
        · exact absurd hq hp1
        · exact absurd hq (hp2 its)
    have h1 : c.tasks.get? k = s.coordinator.tasks.get? k := tasks_of_slot (hframe k hout.1)
    have h2 : c.outside k = s.coordinator.outside k := outside_of_slot (hframe k hout.1)
    rw [Untouched, h1, h2]
    exact h.opened k hout.2
  cases r with
  | ok _ => exact key _ (by simp) (by simp)
  | error _ => exact key _ (by simp) (by simp)

/-- The query finds rows of the previous process only. -/
theorem Inv.load (h : Inv s) {items : List RecoveredTask} (he : s.Enabled (.load items))
    (hu : unmixed s (.load items)) : Inv (Startup.next env cfg s (.load items)) := by
  obtain ⟨hp, hd, hi⟩ := he
  refine ⟨h.gauged, h.once, h.known, h.ids, fun k hk => h.opened k ?_, fun its hq => ?_⟩
  · cases hk with
    | request task hs => exact .request task hs
    | early hs => exact .early hs (.inl hp)
  · obtain rfl : items = its := by simpa [Startup.next] using hq
    refine ⟨hd, fun item hm => ?_⟩
    obtain ⟨row, hrow, hstatus⟩ := (hi item.task.id).mp ⟨item, hm, rfl⟩
    exact ⟨hu item.task.id ⟨row, hrow, hstatus⟩, by
      show (s.coordinator.outside item.task.id).row.isSome = true
      rw [hrow]; rfl⟩

/-- A tick leaves what may still be registered alone. -/
theorem Inv.tick (h : Inv s) {batch : Batch} (he : s.Enabled (.tick batch now)) :
    Inv (Startup.next env cfg s (.tick batch now)) := by
  have hp : s.phase = .looping := he
  have ho := fun k => once_tick env cfg now h.gauged.keyed batch (h.once k) (h.known k)
  refine ⟨maintains_tick env cfg batch now _ h.gauged, fun k => (ho k).1, fun k => (ho k).2, h.ids,
    fun k hk => ?_, fun its hq => by rw [show s.phase = _ from hq] at hp; cases hp⟩
  have hopen : Open s k := by
    cases hk with
    | request task hs => exact .request task hs
    | early hs hq => exact .early hs hq
  have hun := h.opened k hopen
  have hslot := slot_tick_of_none env cfg h.gauged.keyed batch now hun.1
  show Untouched (L3.next env cfg s.coordinator (.tick batch now)) k
  rw [Untouched, tasks_of_slot hslot, outside_of_slot hslot]
  exact hun

end

theorem inv_inductive (env : Env) (cfg : Config) : (Startup.system unmixed env cfg).Inductive Inv where
  init _ := inv_fresh
  step s a s' h hs := by
    obtain ⟨⟨he, hu⟩, rfl⟩ := hs
    cases a with
    | create task => exact h.create he
    | setRunning tid => exact h.setRunning he
    | register tid now => exact h.register he
    | load items => exact h.load he hu
    | resumeAll now => exact h.resumeAll he
    | tick batch now => exact h.tick he

/-- **Every task is registered once** while the query of the recovery comes before
the first commit of a request, or finds its task finished. -/
theorem registered_once (env : Env) (cfg : Config) {s : Startup}
    (hr : (Startup.system unmixed env cfg).Reachable s) : RegisteredOnce s.coordinator :=
  ((inv_inductive env cfg).reachable s hr).registeredOnce

/-- The query first, then the request. -/
theorem registered_once_late :
    RegisteredOnce ([.load [], .resumeAll 0, .create lecture, .setRunning "t1", .register "t1" 1].foldl
      (Startup.next Env.faultless {}) empty).coordinator := by
  refine registered_once Env.faultless {} (LTS.reachable_foldl ⟨fun _ => ⟨rfl, rfl⟩, rfl, fun _ => rfl, rfl⟩
    ⟨⟨⟨rfl, by decide, fun tid => ?_⟩, fun _ _ => rfl⟩, ⟨⟨_, rfl⟩, trivial⟩, ⟨⟨rfl, rfl⟩, trivial⟩,
      ⟨⟨lecture, rfl⟩, trivial⟩, ⟨⟨lecture, rfl⟩, trivial⟩, trivial⟩)
  refine iff_of_false ?_ ?_
  · rintro ⟨item, hm, -⟩; cases hm
  · rintro ⟨row, hrow, -⟩; cases hrow

end MasResearch.Bugs.DoubleRegistration
