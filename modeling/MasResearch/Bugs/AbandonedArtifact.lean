import MasResearch.L3Runs.Gauge
import MasResearch.L3Runs.Rows
import MasResearch.L3Runs.Timers

/-!
# An abandoned task keeps the artifact of the finalization that failed

`_finalize` saves the artifact and the status, the same one in both, in two commits
(src/agents/coordinator.py:386-391). When the second raises, `_tick` abandons the task
and `_abandon` writes FAILED over the row's status only
(src/agents/coordinator.py:193-207,367-379): a client then reads a failed task whose
artifact says completed or partial_ready.

Counterexample (`failed_row_completed_artifact`): the transcript of a one-operation
task arrives and `set_status(completed)` raises once.

`rows_consistent`: every state of the store is consistent as long as each `set_status`
that raised right after its `save_artifact`, for a status other than FAILED, is
followed by the raise of the `set_status(FAILED)` of `_abandon`.
-/
namespace MasResearch.Bugs.AbandonedArtifact

open MasResearch.L1 MasResearch.L2 MasResearch.L3 Relation TaskState

/-- A task is submitted when `create_task` has committed its row; nothing is resumed. -/
def Submits (c : Coordinator) : Action → Prop
  | .submit task _ => Fresh c task.id ∧ ∀ row, (c.outside task.id).row = some row → row.finalArtifact = none
  | .resume .. => False
  | .tick .. => True

/-- Runs of `submit` and ticks over a store whose rows are `rows` at the start. -/
def system (rows : String → Option TaskRow) (env : Env) (cfg : Config) : LTS Coordinator Action :=
  LTS.guarded (fun c => Initial c ∧ ∀ tid, (c.outside tid).row = rows tid ∧ Consistent (rows tid))
    Submits (next env cfg)

/-! ## Counterexample -/

/-- `set_status(completed)` raises. -/
def dbHiccup : Env := { Env.faultless with raises := fun _ call => call = .setStatus .completed }

def trace : List Action :=
  [.submit lecture 0, .tick (.entries [{ entryId := "1-0", payload := some transcript }]) 1]

def final : Coordinator := trace.foldl (next dbHiccup {}) Coordinator.idle

def idleRow : TaskRow := { status := .planning, requestedOutputs := [] }

theorem consistent_idleRow : Consistent (some idleRow) := by
  rintro r ⟨⟩ ht; cases ht

theorem admits_trace (env : Env) : LTS.Admits Submits (next env {}) Coordinator.idle trace :=
  ⟨⟨⟨rfl, rfl⟩, by rintro r ⟨⟩; rfl⟩, trivial, trivial⟩

theorem reachable_trace (env : Env) :
    (system (fun _ => some idleRow) env {}).Reachable (trace.foldl (next env {}) Coordinator.idle) :=
  LTS.reachable_foldl ⟨initial_idle, fun _ => ⟨rfl, consistent_idleRow⟩⟩ (admits_trace env)

/-- **Counterexample.** -/
theorem failed_row_completed_artifact :
    (system (fun _ => some idleRow) dbHiccup {}).Reachable final ∧
      (final.outside "t1").row.map (·.status) = some .failed ∧
      ((final.outside "t1").row.bind (·.finalArtifact)).map (·.status) = some .completed ∧
      ¬ Consistent (final.outside "t1").row := by
  have hs : (final.outside "t1").row.map (·.status) = some .failed := by decide +kernel
  have ha : ((final.outside "t1").row.bind (·.finalArtifact)).map (·.status) = some .completed := by
    decide +kernel
  refine ⟨reachable_trace dbHiccup, hs, ha, fun hc => ?_⟩
  obtain ⟨row, hrow, hs⟩ := Option.map_eq_some_iff.mp hs
  rw [hrow, Option.bind_some] at ha
  obtain ⟨a, hart, ha⟩ := Option.map_eq_some_iff.mp ha
  have := hc row hrow (by rw [hs]; rfl) a hart
  rw [hs, ha] at this
  cases this

/-! ## When the two records agree -/

/-- Whatever `_abandon` does next, the row stays consistent. -/
structure Abortable (env : Env) (start : Option TaskRow) (o : Outside) : Prop where
  ledger : Ledger env start o
  failed : env.raises o.history (.setStatus .failed) = false → FailTogether env o.history →
    Consistent (o.withStatus .failed).row

/-- A slot between two calls: a registered task is under way. -/
structure Kept (env : Env) (tid : String) (start : Option TaskRow) (l : Slot) : Prop where
  keyed : KeyedState tid l.state
  ledger : Ledger env start l.outside
  underway : l.state.isSome = true → Underway l.outside

section

variable {env : Env} {cfg : Config} {now : ℚ} {tid : String} {start : Option TaskRow} {o : Outside}

theorem abortable_underway (h : Ledger env start o) (hu : Underway o) : Abortable env start o :=
  ⟨h, fun _ _ => consistent_withStatus (fun _ hr => hu.artifact hr) .failed⟩

/-- `_finalize` of a task under way. -/
theorem ledger_finalize {cause : Cause} {s : TaskState} {o' : Outside}
    {r : Except PyError Unit} (h : Ledger env start o) (hu : Underway o)
    (hr : FinalizeOutcome env cause now s o r o') :
    (r = .ok () → Ledger env start o') ∧ ∀ e, r = .error e → Abortable env start o' := by
  have h1 : Ledger env start (o.finalizing cause s) := h.note fun _ => rfl
  have hu1 : Underway (o.finalizing cause s) := hu.congr rfl
  -- the artifact lands in a row that still says running
  have h2 : ∀ a : ResultArtifact, Ledger env start ((o.finalizing cause s).withArtifact a) := fun a => by
    obtain ⟨row, hrow, hs, -⟩ := hu1
    refine h1.withArtifact fun r hr ht _ _ => ?_
    obtain ⟨row', hrow', rfl⟩ := Option.map_eq_some_iff.mp
      (show (o.finalizing cause s).row.map _ = some r from hr)
    rw [hrow] at hrow'; cases hrow'
    rw [show row.status = _ from hs] at ht; cases ht
  have hart : ∀ (a : ResultArtifact) (status : TaskStatus) (r : TaskRow),
      (((o.finalizing cause s).withArtifact a).withStatus status).row = some r →
        r.finalArtifact = some a ∧ r.status = status := by
    intro a status r hr
    obtain ⟨row, hrow, rfl⟩ := Option.map_eq_some_iff.mp (show Option.map _ _ = some r from hr)
    obtain ⟨row, -, rfl⟩ := Option.map_eq_some_iff.mp (show Option.map _ _ = some row from hrow)
    exact ⟨rfl, rfl⟩
  cases hr with
  | rejected => exact ⟨fun he => (by cases he), fun _ _ => abortable_underway h1 hu1⟩
  | unsaved =>
    exact ⟨fun he => (by cases he), fun _ _ => abortable_underway (h1.note fun _ => rfl) (hu1.congr rfl)⟩
  | @unset a e ha hraise =>
    refine ⟨fun he => (by cases he), fun _ _ => ⟨(h2 a).note fun _ => rfl, fun hok hf => ?_⟩⟩
    have hfailed : a.status = .failed := by
      by_contra hne
      have hok : env.raises (.statusFailed a.status :: .artifactSaved a :: (o.finalizing cause s).history)
          (.setStatus .failed) = false := hok
      rw [hf a _ (List.suffix_cons _ _) hne hraise] at hok
      cases hok
    intro r hr _ b hb
    obtain ⟨hra, hrs⟩ := hart a .failed r hr
    rw [hra] at hb; cases hb
    rw [hrs, hfailed]
  | @stored a ha _ _ _ =>
    refine ⟨fun _ => (h2 a).withStatus fun _ r hr _ b hb => ?_, fun _ he => (by cases he)⟩
    obtain ⟨hra, hrs⟩ := hart a a.status r hr
    rw [hra] at hb; cases hb
    exact hrs.symm

/-- Finalizing a registered task: it is gone, or to be abandoned. -/
theorem ledger_finalizeRegistered (now : ℚ) (cause : Cause) (s : TaskState)
    (st : Option TaskState) (g : Int) (h : Ledger env start o) (hu : Underway o) :
    ∃ r l', (finalizeRegistered env cause s now).run ⟨st, o, g⟩ = (r, l') ∧
      (r = .ok () → Ledger env start l'.outside ∧ l'.state = none) ∧
      ∀ e, r = .error e → Abortable env start l'.outside := by
  obtain ⟨r, o', h1, ho⟩ := run_finalize_outcome env cause now s o
  obtain ⟨hok, herr⟩ := ledger_finalize h hu ho
  simp only [finalizeRegistered, Exec.run_bind, run_onState h1]
  cases r with
  | ok _ => exact ⟨_, _, rfl, fun _ => ⟨hok rfl, rfl⟩, fun _ he => (by cases he)⟩
  | error e => exact ⟨_, _, rfl, fun he => (by cases he), fun _ he => herr e rfl⟩

/-- The `try` block of `_tick`. -/
theorem ledger_dispatchTask (cfg : Config) (now : ℚ) {s : TaskState} (hw : s.Wf) (g : Int)
    (h : Ledger env start o) (hu : Underway o) :
    ∃ r l', (dispatchTask env cfg now).run ⟨some s, o, g⟩ = (r, l') ∧
      (r = .ok () → Ledger env start l'.outside ∧ (l'.state.isSome = true → Underway l'.outside)) ∧
      ∀ e, r = .error e → Abortable env start l'.outside := by
  have hsilent := silent_advance env cfg now hw o
  generalize h1 : (advance env cfg now).run ⟨s, o⟩ = r at hsilent
  obtain ⟨r, c⟩ := r
  have hl := h.silent hsilent
  have hu' : Underway c.outside := hu.congr (row_of_silent hsilent)
  simp only [dispatchTask, Exec.run_bind, Exec.run_get, run_onState h1]
  cases r with
  | error e => exact ⟨_, _, rfl, fun he => (by cases he), fun _ _ => abortable_underway hl hu'⟩
  | ok _ =>
    dsimp only
    rw [run_maybeFinalize]
    by_cases hp : c.state.pending = ∅
    · rw [if_pos hp]
      obtain ⟨r, l', h2, hok, herr⟩ := ledger_finalizeRegistered now .resolved c.state (some c.state) g
        hl hu'
      rw [h2]
      cases r with
      | error e => exact ⟨_, _, rfl, fun he => (by cases he), herr⟩
      | ok _ =>
        obtain ⟨hl', hn⟩ := hok rfl
        simp only [hn]
        exact ⟨_, _, rfl, fun _ => ⟨hl', fun hs => by rw [hn] at hs; cases hs⟩, fun _ he => (by cases he)⟩
    rw [if_neg hp]
    dsimp only
    by_cases hd : cfg.globalDeadlineSec < now - c.state.startedAt
    · rw [if_pos hd, deadlineFinalize]
      obtain ⟨r, l', h2, hok, herr⟩ := ledger_finalizeRegistered now .deadline c.state (some c.state) g
        hl hu'
      exact ⟨r, l', h2, fun he => ⟨(hok he).1, fun hs => by rw [(hok he).2] at hs; cases hs⟩, herr⟩
    · rw [if_neg hd]
      exact ⟨_, _, rfl, fun _ => ⟨hl, fun _ => hu'⟩, fun _ he => (by cases he)⟩

/-- `_abandon` leaves a consistent row where it may. -/
theorem ledger_abandon (st : Option TaskState) (g : Int) (h : Abortable env start o) :
    Ledger env start ((abandon env).run ⟨st, o, g⟩).2.outside := by
  have hrun : ((abandon env).run ⟨st, o, g⟩).2.outside = ((setStatus env .failed).run o).2 := by
    generalize hr : (setStatus env .failed).run o = r
    obtain ⟨r, o'⟩ := r
    cases st <;> cases r <;> simp [abandon, storeCall, Slot.pop, Exec.run_bind, Exec.run_attempt, hr]
  rw [hrun]
  rcases run_setStatus env .failed o with ⟨e, h1, -⟩ | ⟨h1, hr, -⟩
  · rw [h1]; exact h.ledger.note fun _ => rfl
  · rw [h1]; exact h.ledger.withStatus fun hf => h.failed hr hf.tail

/-- One round of the loop of `_tick`. -/
theorem maintains_processTask :
    Exec.Maintains (Kept env tid start) (processTask env cfg now) := by
  intro l h
  obtain ⟨l', hrun, -, hk, -⟩ := run_processTask env cfg now h.keyed
  obtain ⟨st, o, g⟩ := l
  cases st with
  | none => exact h
  | some s =>
    obtain ⟨r, l₁, h1, hok, herr⟩ := ledger_dispatchTask cfg now
      (h.keyed s rfl).1 g h.ledger (h.underway rfl)
    rw [hrun]
    suffices hl : Ledger env start l'.outside ∧ (l'.state.isSome = true → Underway l'.outside) from
      ⟨hk, hl.1, hl.2⟩
    rw [processTask, Exec.run_attempt, h1] at hrun
    cases r with
    | ok _ => cases hrun; exact hok rfl
    | error e =>
      obtain ⟨st, o₁, g₁⟩ := l₁
      obtain ⟨o₂, h2, -⟩ := run_abandon env st o₁ g₁
      have hl := ledger_abandon st g₁ (herr e rfl)
      have hrun : (abandon env).run ⟨st, o₁, g₁⟩ = (.ok (), l') := hrun
      rw [hrun] at hl
      rw [h2] at hrun
      cases hrun
      exact ⟨hl, fun hs => by cases hs⟩

theorem maintains_slotRoutes : ∀ replies : List Message,
    Exec.Maintains (Kept env tid start) (slotRoutes env now replies)
  | [] => Exec.Maintains.pure _
  | reply :: replies => by
    refine Exec.Maintains.bind (fun l h => ?_) fun _ =>
      (maintains_slotRoutes replies).bind fun _ => Exec.Maintains.pure _
    obtain ⟨jobs, l', h1, -, hk, -, hc⟩ := run_routeTo env now h.keyed reply
    rw [h1]
    rcases hc with ⟨-, rfl⟩ | ⟨s, s', hs, -, ho, -⟩
    · exact h
    · have hu := h.underway (by rw [hs]; rfl)
      refine ⟨hk, ?_, fun _ => ?_⟩ <;> rw [ho]
      · exact h.ledger.note fun _ => rfl
      · exact hu.congr rfl

theorem maintains_persistResult (job : Job) : Exec.Maintains (Kept env tid start) (persistResult env job) := by
  intro l h
  obtain ⟨st, o, g⟩ := l
  have hsilent := silent_persistResult env job st o g
  obtain ⟨o', -, h1⟩ := run_persistResult env job o
  rw [h1] at hsilent ⊢
  exact ⟨h.keyed, h.ledger.silent hsilent, fun hs => (h.underway hs).congr (row_of_silent hsilent)⟩

theorem maintains_slotTick (cfg : Config) (now : ℚ) (replies : List Message) :
    Exec.Maintains (Kept env tid start) (slotTick env cfg replies now) :=
  (maintains_slotRoutes replies).bind fun _ => maintains_processTask.bind fun _ =>
    Exec.Maintains.forEach fun job _ => maintains_persistResult job

/-- `submit` on a row without an artifact. A task that is registered is under way,
as the first `_advance` leaves every subtask pending. -/
theorem kept_submit (cfg : Config) (now : ℚ) (task : Task) (h : Ledger env start o)
    (ha : ∀ row, o.row = some row → row.finalArtifact = none) :
    Kept env task.id start ((submit env cfg task now).run ⟨none, o, 0⟩).2 := by
  have hk := (balanced_submit env cfg task now o 0).1
  suffices hl : Ledger env start ((submit env cfg task now).run ⟨none, o, 0⟩).2.outside ∧
      (((submit env cfg task now).run ⟨none, o, 0⟩).2.state.isSome = true →
        Underway ((submit env cfg task now).run ⟨none, o, 0⟩).2.outside) from ⟨hk, hl.1, hl.2⟩
  have hst : (storeCall (setStatus env .running)).run ⟨none, o, 0⟩ =
      (((setStatus env .running).run o).1, ⟨none, ((setStatus env .running).run o).2, 0⟩) := rfl
  rcases run_setStatus env .running o with ⟨e, h1, -⟩ | ⟨h1, -, hrow⟩
  · rw [h1] at hst
    rw [submit, Exec.run_bind_error hst]
    exact ⟨h.note fun _ => rfl, fun hs => by cases hs⟩
  rw [h1] at hst
  rw [submit, Exec.run_bind_ok hst]
  have h2 := h.withStatus fun _ => consistent_withStatus ha .running
  have hu : Underway (o.withStatus .running) := by
    obtain ⟨row, hrow⟩ := Option.isSome_iff_exists.mp hrow
    exact ⟨{ row with status := .running }, by simp [Outside.withStatus, hrow], rfl, ha row hrow⟩
  by_cases hp : (TaskState.submitted task now).pending = ∅
  · obtain ⟨r, o', h3, ho⟩ := run_enrol_done env cfg now .submit hp none (o.withStatus .running) 0
    rw [h3]
    refine ⟨?_, fun hs => by cases hs⟩
    cases r with
    | ok _ => exact (ledger_finalize h2 hu ho).1 rfl
    | error e => exact ((ledger_finalize h2 hu ho).2 e rfl).ledger
  · have hunsp := unspent_submitted task now
    have h3 : Ledger env start ((o.withStatus .running).note (.registered .submit)) := h2.note fun _ => rfl
    have hu3 : Underway ((o.withStatus .running).note (.registered .submit)) := hu.congr rfl
    have hsilent := silent_advance env cfg now hunsp.wf ((o.withStatus .running).note (.registered .submit))
    simp only [enrol, if_neg hp, Exec.run_bind, Exec.run_modify, Slot.register]
    rcases run_advance_first env cfg now hunsp ((o.withStatus .running).note (.registered .submit)) with
      ⟨-, c', h4⟩ | ⟨hist, s', -, h4, hs⟩
    · rw [h4] at hsilent
      rw [run_onState h4]
      exact ⟨h3.silent hsilent, fun _ => hu3.congr (row_of_silent hsilent)⟩
    · rw [h4] at hsilent
      rw [run_onState h4]
      dsimp only
      rw [run_maybeFinalize, if_neg (by rw [hs.pending]; exact hp)]
      exact ⟨h3.silent hsilent, fun _ => hu3.congr (row_of_silent hsilent)⟩

end

/-- All slots are kept. -/
def AllKept (env : Env) (rows : String → Option TaskRow) (c : Coordinator) : Prop :=
  ∀ tid, Kept env tid (rows tid) (c.slot tid)

theorem allKept_inductive (env : Env) (cfg : Config) (rows : String → Option TaskRow) :
    (system rows env cfg).Inductive (AllKept env rows) where
  init c h tid := by
    obtain ⟨hi, hr⟩ := h
    rw [(hi tid).slot]
    refine ⟨keyed_none tid, ⟨?_, fun k hk _ => ?_⟩, fun hs => by cases hs⟩
    · show (c.outside tid).row = rowAfter (rows tid) (c.outside tid).history
      rw [(hi tid).2, (hr tid).1]; rfl
    · have hk : k <:+ (c.outside tid).history := hk
      rw [(hi tid).2, List.suffix_nil] at hk
      rw [hk]; exact (hr tid).2
  step c a c' h hs := by
    obtain ⟨ha, rfl⟩ := hs
    have hkeyed : Keyed c := fun tid => (h tid).keyed
    cases a with
    | resume => exact ha.elim
    | submit task now =>
      obtain ⟨hfresh, hart⟩ := ha
      intro tid
      rw [next_submit env cfg hfresh]
      by_cases ht : tid = task.id
      · rw [ht, slot_putSlot_self]
        have hk := kept_submit cfg now task (h task.id).ledger hart
        exact ⟨hk.keyed, hk.ledger, hk.underway⟩
      · rw [slot_putSlot_ne ht]; exact h tid
    | tick batch now =>
      rw [next, Action.coroutine]
      rcases tick_cases env cfg now batch c hkeyed with ⟨e, m, -, hrun⟩ | ⟨replies, m, c', -, hrun, -, hslot⟩
      · rw [hrun]; exact h
      · intro tid
        have hk := maintains_slotTick cfg now (replies.filter fun r => r.taskId = tid) _ (h tid)
        rw [hrun, hslot tid]
        exact ⟨hk.keyed, hk.ledger, hk.underway⟩

/-- **Every state of the store is consistent** while the two status writes fail together. -/
theorem rows_consistent (env : Env) (cfg : Config) (rows : String → Option TaskRow) {c : Coordinator}
    (hr : (system rows env cfg).Reachable c) (tid : String) :
    (c.outside tid).row = rowAfter (rows tid) (c.outside tid).history ∧
      ∀ h, h <:+ (c.outside tid).history → FailTogether env h → Consistent (rowAfter (rows tid) h) :=
  have hl := ((allKept_inductive env cfg rows).reachable c hr tid).ledger
  ⟨hl.row, hl.past⟩

/-- An artifact was saved. -/
def isSaved : Event → Bool
  | .artifactSaved _ => true
  | _ => false

/-- `set_status(completed)` raises, and so does `set_status(failed)`. -/
def dbDown : Env :=
  { Env.faultless with raises := fun _ call => call = .setStatus .completed ∨ call = .setStatus .failed }

/-- The artifact was saved, and no status: the row still says running. -/
theorem rows_consistent_down :
    ((trace.foldl (next dbDown {}) Coordinator.idle).outside "t1").row.map (·.status) = some .running ∧
    ((trace.foldl (next dbDown {}) Coordinator.idle).outside "t1").history.any isSaved = true ∧
    Consistent (rowAfter (some idleRow) ((trace.foldl (next dbDown {}) Coordinator.idle).outside "t1").history) :=
  ⟨by decide +kernel, by decide +kernel, (rows_consistent dbDown {} (fun _ => some idleRow)
    (reachable_trace dbDown) "t1").2 _ (List.suffix_refl _) fun _ _ _ _ _ => rfl⟩

end MasResearch.Bugs.AbandonedArtifact
