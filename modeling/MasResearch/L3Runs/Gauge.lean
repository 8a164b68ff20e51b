import MasResearch.L3Runs.Runs

/-!
# The gauge of tasks in flight

`INFLIGHT_TASKS` goes up where a task enters `_tasks` and down where it leaves.
`Balanced` says so of one call on one slot; `gauged_next` concludes that after
every transition, returned or raised, the gauge has moved by exactly the number
of registered tasks.
-/
namespace MasResearch.L3

open MasResearch.L1 MasResearch.L2 Relation TaskState

/-- What a slot contributes to the gauge. -/
def held (st : Option TaskState) : Int := if st.isSome then 1 else 0

/-- The call left the slot keyed and moved the gauge as the slot. -/
def Balanced (tid : String) (l l' : Slot) : Prop :=
  KeyedState tid l'.state ∧ l'.inflight = l.inflight + (held l'.state - held l.state)

/-- The gauge is `base` and one for each registered task. -/
structure Gauged (base : Int) (c : Coordinator) : Prop where
  keyed : Keyed c
  inflight : c.inflight = base + c.tasks.size

variable {env : Env} {cfg : Config} {now : ℚ} {base : Int} {tid : String} {c : Coordinator}

theorem gauged_initial (h : Initial c) : Gauged c.inflight c :=
  ⟨fun tid => by rw [(h tid).1]; exact keyed_none tid, by rw [Dict.size_eq_zero fun tid => (h tid).1]; simp⟩

theorem gauged_putSlot {l : Slot} (h : Gauged base c) (hl : Balanced tid (c.slot tid) l) :
    Gauged base (c.putSlot tid l) := by
  refine ⟨keyed_putSlot h.keyed hl.1, ?_⟩
  have hg := hl.2
  have hsize : (((c.putSlot tid l).tasks.size : Nat) : Int) =
      c.tasks.size + (held l.state - held (c.tasks.get? tid)) := by
    have hmem : tid ∈ c.tasks ↔ (c.tasks.get? tid).isSome = true := Dict.mem_iff_get?
    cases hs : l.state with
    | some s =>
      have := Dict.size_set c.tasks tid s
      by_cases hm : tid ∈ c.tasks
      · simp [Coordinator.putSlot, hs, held, this, hm, hmem.mp hm]
      · simp [Coordinator.putSlot, hs, held, this, hm, Dict.not_mem_iff.mp hm]
    | none =>
      have := Dict.size_erase c.tasks tid
      by_cases hm : tid ∈ c.tasks
      · simp only [hm, if_true] at this
        simp only [Coordinator.putSlot, hs, held, hmem.mp hm, if_true, Option.isSome_none, Bool.false_eq_true,
          if_false]
        omega
      · simp only [hm, if_false] at this
        simp only [Coordinator.putSlot, hs, held, Dict.not_mem_iff.mp hm, Option.isSome_none,
          Bool.false_eq_true, if_false]
        omega
  have hi : l.inflight = held l.state - held (c.tasks.get? tid) := by
    simpa [Coordinator.slot] using hg
  have hc := h.inflight
  show c.inflight + l.inflight = base + _
  omega

theorem gauged_forTask {α : Type} {x : SlotM α} (h : Gauged base c)
    (hx : Balanced tid (c.slot tid) (x.run (c.slot tid)).2) : Gauged base ((forTask tid x).run c).2 := by
  rw [forTask, Exec.run_zoom]; exact gauged_putSlot h hx

/-! ## Ticks -/

theorem balanced_routeTo {l : Slot} (hk : KeyedState tid l.state) (reply : Message) :
    Balanced tid l ((routeTo env reply now).run l).2 := by
  obtain ⟨jobs, l', h1, hg, hk', -, hc⟩ := run_routeTo env now hk reply
  rw [h1]
  refine ⟨hk', ?_⟩
  rcases hc with ⟨-, rfl⟩ | ⟨s, s', hs, hs', -, -⟩
  · simp
  · simp [hg, hs, hs', held]

theorem balanced_processTask {l : Slot} (hk : KeyedState tid l.state) :
    Balanced tid l ((processTask env cfg now).run l).2 := by
  obtain ⟨st, o, g⟩ := l
  cases st with
  | none => rw [run_processTask_none]; exact ⟨hk, by simp⟩
  | some s =>
    obtain ⟨l', h1, hs, hg, -⟩ := processTask_spec env cfg now (hk s rfl).1 o g
    rw [h1]
    refine ⟨keyed_star env hk hs, ?_⟩
    rw [hg]
    cases l'.state with
    | none =>
      simp only [held, Option.isSome_none, Option.isSome_some, Bool.false_eq_true, if_false, if_true]
      omega
    | some _ => simp [held]

theorem balanced_persistResult {l : Slot} (hk : KeyedState tid l.state) (job : Job) :
    Balanced tid l ((persistResult env job).run l).2 := by
  obtain ⟨st, o, g⟩ := l
  obtain ⟨o', -, h1⟩ := run_persistResult env job o
  rw [h1 st g]
  exact ⟨hk, by simp⟩

theorem maintains_routeAll (env : Env) (now : ℚ) : ∀ replies : List Message,
    Exec.Maintains (Gauged base) (routeAll env now replies)
  | [] => Exec.Maintains.pure _
  | reply :: replies => Exec.Maintains.bind
      (fun _ h => gauged_forTask h (balanced_routeTo (h.keyed _) reply)) fun _ =>
      (maintains_routeAll env now replies).bind fun _ => Exec.Maintains.pure _

theorem maintains_tick (env : Env) (cfg : Config) (batch : Batch) (now : ℚ) :
    Exec.Maintains (Gauged base) (tick env cfg batch now) := by
  refine Exec.Maintains.bind (fun c h => ⟨h.keyed, h.inflight⟩) fun replies => ?_
  refine (maintains_routeAll env now replies).bind fun jobs => ?_
  refine Exec.Maintains.bind ?_ fun _ => ?_
  · exact Exec.Maintains.get_bind fun c _ => Exec.Maintains.forEach fun tid _ _ h =>
      gauged_forTask h (balanced_processTask (h.keyed tid))
  · exact Exec.Maintains.forEach fun job _ _ h => gauged_forTask h (balanced_persistResult (h.keyed _) job)

/-! ## Registrations -/

/-- Registering an unregistered task. -/
theorem balanced_enrol (env : Env) (cfg : Config) {s : TaskState} (hwf : s.Wf) (hdue : NothingDue now s)
    (who : Registrar) (o : Outside) (g : Int) :
    Balanced s.task.id ⟨none, o, g⟩ ((enrol env cfg who s now).run ⟨none, o, g⟩).2 := by
  obtain ⟨r, l', h1, hg, hc⟩ := enrol_spec env cfg hwf hdue who o g
  rw [h1]
  refine ⟨?_, by rw [hg]; cases l'.state <;> simp [held]⟩
  rcases hc with ⟨-, hs⟩ | ⟨-, hn, -⟩
  · exact keyed_star env (v := (some s, _)) (by rintro _ ⟨⟩; exact ⟨hwf, rfl⟩) hs
  · rw [hn]; exact keyed_none _

theorem balanced_submit (env : Env) (cfg : Config) (task : Task) (now : ℚ) (o : Outside) (g : Int) :
    Balanced task.id ⟨none, o, g⟩ ((L2.submit env cfg task now).run ⟨none, o, g⟩).2 := by
  obtain ⟨o1, -, ⟨e, hrun⟩ | hrun⟩ := run_submit env cfg task now none o g
  · rw [hrun]
    exact ⟨keyed_none _, by simp⟩
  · rw [hrun]
    exact balanced_enrol env cfg (exact_submitted task now).toWf (nothingDue_submitted task now)
      .submit o1 g

theorem balanced_resume (env : Env) (cfg : Config) (task : Task) (results : Dict String Content) (now : ℚ)
    (o : Outside) (g : Int) :
    Balanced task.id ⟨none, o, g⟩ ((L2.resume env cfg task results now).run ⟨none, o, g⟩).2 :=
  balanced_enrol env cfg (exact_resumed task results now).toWf
    (nothingDue_resumed task results now) .recovery (o.note .recovered) g

/-- **The gauge** follows `_tasks` through every transition. -/
theorem gauged_next {A : Assumptions} {a : Action} (h : Gauged base c) (ha : A.allows env c a) :
    Gauged base (next env cfg c a) := by
  cases a with
  | submit task now =>
    refine gauged_forTask h ?_
    rw [ha.2.slot]; exact balanced_submit env cfg task now _ 0
  | resume task results now =>
    refine gauged_forTask h ?_
    rw [ha.2.slot]; exact balanced_resume env cfg task results now _ 0
  | tick batch now => exact maintains_tick env cfg batch now c h

end MasResearch.L3
