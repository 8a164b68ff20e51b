import MasResearch.L3Runs.Audit

/-!
# Invariants of a task under its id

`TaskInv` is about a registered state and its history. `ViewInv` is the rule for what holds
of a task whether it is registered, was never started or has left `_tasks`, and names the
id it is kept under.

* `ViewInv.reachable`: what a fresh slot has, a start brings along, and steps and routed
  replies keep, holds of every slot of every reachable coordinator.
* `history_next_append`: a transition adds to a task's history and removes nothing.
* `request_taskId`: a request in the history of a task is about that task.
-/
namespace MasResearch.L3

open MasResearch.L1 MasResearch.L2 Relation TaskState

/-- The states `submit` and `_resume` build for a task. -/
inductive Starts (task : Task) : TaskState → Prop
  | submitted (now : ℚ) : Starts task (TaskState.submitted task now)
  | resumed (results : Dict String Content) (now : ℚ) : Starts task (TaskState.resumed task results now)

structure ViewInv (env : Env) (cfg : Config) (V : String → View → Prop) : Prop where
  fresh : ∀ {tid o}, o.history = [] → V tid (none, o)
  starts : ∀ {task s o}, Starts task s → V task.id (none, o) → V task.id (some s, o)
  noted : ∀ {tid st o e}, V tid (st, o) → e.quiet = true → V tid (st, o.note e)
  step : ∀ {tid now v v'}, KeyedState tid v.1 → V tid v → SlotStep env cfg now v v' → V tid v'
  routed : ∀ {tid now m s o jobs s'}, KeyedState tid (some s) → V tid (some s, o) → Routed env now m s jobs s' →
    V tid (some s', o.note (.routed m))

namespace ViewInv

variable {A : Assumptions} {env : Env} {cfg : Config} {V : String → View → Prop} {now : ℚ} {tid : String}

theorem slotInv (hV : ViewInv env cfg V) (tid : String) :
    SlotInv env cfg fun v => KeyedState tid v.1 ∧ V tid v where
  step h hs := ⟨keyed_step env h.1 hs, hV.step h.1 h.2 hs⟩
  routed := by
    intro now m s o jobs s' h hr
    obtain ⟨hwf, hid⟩ := h.1 s rfl
    refine ⟨?_, hV.routed h.1 h.2 hr⟩
    rintro _ ⟨⟩
    exact ⟨Wf.routed hwf hr, by rw [hr.frame.1, hid]⟩

theorem enrol (hV : ViewInv env cfg V) {task : Task} {s : TaskState} (hs : Starts task s) (hwf : s.Wf)
    (hdue : NothingDue now s) (who : Registrar) {o : Outside} (g : Int) (h : V task.id (none, o)) :
    KeyedState task.id ((enrol env cfg who s now).run ⟨none, o, g⟩).2.state ∧
      V task.id ((L2.enrol env cfg who s now).run ⟨none, o, g⟩).2.view := by
  have htask : s.task = task := by cases hs <;> rfl
  have hk : KeyedState task.id (some s) := by rintro _ ⟨⟩; exact ⟨hwf, by rw [htask]⟩
  have hstart := hV.starts hs h
  obtain ⟨r, l', h1, -, hc⟩ := enrol_spec env cfg hwf hdue who o g
  rw [h1]
  rcases hc with ⟨-, hstar⟩ | ⟨hp, hn, hq⟩
  · exact (hV.slotInv task.id).steps hstar ⟨hk, hV.noted hstart rfl⟩
  · -- finalized without having been registered
    have hfin : ReflTransGen (SlotStep env cfg now) (some s, o) (none, l'.outside) :=
      .head (.finalizing .resolved hp) (.head .closed (recorded_star hq))
    have hend := (hV.slotInv task.id).steps hfin ⟨hk, hstart⟩
    rw [Slot.view, hn]
    exact hend

theorem next (hV : ViewInv env cfg V) {c : Coordinator} {a : Action} (hk : Keyed c)
    (h : ∀ tid, V tid (c.slot tid).view) (ha : A.allows env c a) (tid : String) :
    V tid ((L3.next env cfg c a).slot tid).view := by
  have hput : ∀ {k : String} {l : Slot}, V k l.view → V tid ((c.putSlot k l).slot tid).view := by
    intro k l hl
    by_cases he : tid = k
    · subst he; rw [slot_putSlot_self]; exact hl
    · rw [slot_putSlot_ne he]; exact h tid
  cases a with
  | submit task now =>
    rw [next_submit env cfg ha.2]
    refine hput ?_
    have hnone : V task.id (none, c.outside task.id) := hV.fresh ha.2.2
    obtain ⟨o1, hq, ⟨e, hrun⟩ | hrun⟩ := run_submit env cfg task now none (c.outside task.id) 0 <;> rw [hrun]
    · exact hV.step (keyed_none _) hnone (.recorded hq : SlotStep env cfg now _ _)
    · exact (hV.enrol (.submitted now) (exact_submitted task now).toWf (nothingDue_submitted task now) .submit 0
        (hV.step (keyed_none _) hnone (.recorded hq : SlotStep env cfg now _ _))).2
  | resume task results now =>
    rw [next_resume env cfg ha.2]
    exact hput (hV.enrol (.resumed results now) (exact_resumed task results now).toWf
      (nothingDue_resumed task results now) .recovery 0 (hV.noted (e := .recovered) (hV.fresh ha.2.2) rfl)).2
  | tick batch now =>
    rw [L3.next, Action.coroutine]
    rcases tick_cases env cfg now batch c hk with ⟨e, m, -, hrun⟩ | ⟨replies, m, c', -, hrun, -, hslot⟩
    · rw [hrun]; exact h tid
    · rw [hrun, hslot tid]
      exact ((hV.slotInv tid).slotTick (l := c.slot tid) (hk tid) ⟨hk tid, h tid⟩ _ now).2

theorem inductive_views (hV : ViewInv env cfg V) (A : Assumptions) :
    (runs A env cfg).Inductive fun c => Keyed c ∧ ∀ tid, V tid (c.slot tid).view where
  init c h := ⟨fun tid => by rw [(h tid).1]; exact keyed_none tid, fun tid => by
    rw [(h tid).slot]; exact hV.fresh (h tid).2⟩
  step c a c' h hs := by
    obtain ⟨ha, rfl⟩ := hs
    exact ⟨keyed_next h.1 ha, hV.next h.1 h.2 ha.allowed⟩

theorem reachable (hV : ViewInv env cfg V) {c : Coordinator} (hr : (runs A env cfg).Reachable c) (tid : String) :
    V tid (c.slot tid).view := ((hV.inductive_views A).reachable c hr).2 tid

end ViewInv

/-! ## Histories grow -/

variable {A : Assumptions} {env : Env} {cfg : Config}

theorem history_next_append (env : Env) (cfg : Config) {c : Coordinator} (hk : Keyed c) {a : Action}
    (ha : A.allows env c a) (tid : String) :
    ∃ new, ((next env cfg c a).outside tid).history = new ++ (c.outside tid).history := by
  have hput : ∀ {k : String} {l : Slot}, Fresh c k →
      ∃ new, ((c.putSlot k l).outside tid).history = new ++ (c.outside tid).history := by
    intro k l hf
    by_cases he : tid = k
    · subst he
      rw [hf.2]
      exact ⟨_, (List.append_nil _).symm⟩
    · exact ⟨[], by rw [outside_of_slot (slot_putSlot_ne he), List.nil_append]⟩
  cases a with
  | submit task now => rw [next_submit env cfg ha.2]; exact hput ha.2
  | resume task results now => rw [next_resume env cfg ha.2]; exact hput ha.2
  | tick batch now =>
    cases hs : c.tasks.get? tid with
    | none => exact ⟨[], by rw [outside_of_slot (slot_tick_of_none env cfg hk batch now hs), List.nil_append]⟩
    | some s =>
      rw [next, Action.coroutine]
      rcases tick_cases env cfg now batch c hk with ⟨e, m, -, hrun⟩ | ⟨replies, m, c', -, hrun, -, hslot⟩
      · rw [hrun]; exact ⟨[], rfl⟩
      · obtain ⟨new, hnew, -⟩ := slotTick_history env cfg now (replies.filter fun r => r.taskId = tid)
          (hk tid) (show (c.slot tid).state = some s from hs)
        rw [hrun]
        exact ⟨new, (congrArg (fun l : Slot => l.outside.history) (hslot tid)).trans hnew⟩

/-! ## A request is about its task -/

/-- The requests of a history carry the id of the task. -/
def Addressed (tid : String) (v : View) : Prop := ∀ channel sub results request t,
  Event.published channel sub results request t ∈ v.2.history → request.taskId = tid

theorem Addressed.note {tid : String} {st st' : Option TaskState} {o : Outside} {e : Event}
    (h : Addressed tid (st, o))
    (he : ∀ channel sub results request t, e = .published channel sub results request t → request.taskId = tid) :
    Addressed tid (st', o.note e) := by
  intro channel sub results request t hm
  rcases List.mem_cons.mp hm with rfl | hm
  · exact he _ _ _ _ _ rfl
  · exact h _ _ _ _ _ hm

theorem viewInv_addressed (env : Env) (cfg : Config) : ViewInv env cfg Addressed where
  fresh h := by intro _ _ _ _ _ hm; rw [h] at hm; cases hm
  starts _ h := h
  noted h hq := h.note (by rintro _ _ _ _ _ rfl; cases hq)
  step := by
    intro tid now v v' hk h hs
    cases hs with
    | @move s o c hm =>
      have hid : s.task.id = tid := (hk s rfl).2
      cases hm with
      | ready => exact h.note (by rintro _ _ _ _ _ ⟨⟩; exact hid)
      | skip => exact h
      | expire => exact h
      | again => exact h.note (by rintro _ _ _ _ _ ⟨⟩; exact hid)
    | finalizing => exact h.note (by simp)
    | @recorded st o o' hq =>
      obtain ⟨e, he, hh⟩ := hq
      intro channel sub results request t hm
      rw [hh] at hm
      rcases List.mem_cons.mp hm with rfl | hm
      · cases he
      · exact h _ _ _ _ _ hm
    | closed => exact h
  routed _ h _ := h.note (by simp)

theorem request_taskId {c : Coordinator} (hr : (runs A env cfg).Reachable c) {tid channel : String} {sub : Subtask}
    {results : Results} {request : Message} {t : ℚ}
    (hm : Event.published channel sub results request t ∈ (c.outside tid).history) : request.taskId = tid :=
  (viewInv_addressed env cfg).reachable hr tid _ _ _ _ _ hm

end MasResearch.L3
