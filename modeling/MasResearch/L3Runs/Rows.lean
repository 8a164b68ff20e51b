import MasResearch.L2Dispatch.Enrol
import MasResearch.L3Runs.Runs

/-!
# The row of a task, commit by commit

Only `set_status` and `save_artifact` write the row, and the history records each
commit, so the row is a function of the history and of the row at the start
(`rowAfter`). The states the store goes through are the rows after the suffixes of
the history, those inside a tick included. A row is `Consistent` when a terminal status
agrees with the artifact's. `Ledger` holds when the row was consistent for as long as
the calls failed together (`FailTogether`). `_advance` and the saves of results commit
nothing to it (`Silent`).
-/
namespace MasResearch.L3

open MasResearch.L1 MasResearch.L2 Relation TaskState

/-- What an event leaves of the row. -/
def rowStep (row : Option TaskRow) : Event → Option TaskRow
  | .statusSet status => row.map fun row => { row with status := status }
  | .artifactSaved a => row.map fun row => { row with finalArtifact := some a, stats := some a.stats }
  | _ => row

def rowAfter (start : Option TaskRow) (h : List Event) : Option TaskRow :=
  h.foldr (fun e row => rowStep row e) start

/-- A client that reads a terminal status and an artifact reads one status. -/
def Consistent (row : Option TaskRow) : Prop :=
  ∀ r, row = some r → r.status.terminal = true → ∀ a, r.finalArtifact = some a → a.status = r.status

/-- Whenever the `set_status` right after a `save_artifact` raised, for a status other
than FAILED, the environment lets a `set_status(FAILED)` right after it raise as well. -/
def FailTogether (env : Env) (h : List Event) : Prop := ∀ (a : ResultArtifact) (k : List Event),
  .artifactSaved a :: k <:+ h → a.status ≠ .failed →
    env.raises (.artifactSaved a :: k) (.setStatus a.status) = true →
      env.raises (.statusFailed a.status :: .artifactSaved a :: k) (.setStatus .failed) = true

theorem FailTogether.tail {env : Env} {e : Event} {h : List Event} (hf : FailTogether env (e :: h)) :
    FailTogether env h := fun a k hk => hf a k (hk.trans (List.suffix_cons e h))

/-- The row is what the history makes of `start`, and was consistent while the calls
failed together. -/
structure Ledger (env : Env) (start : Option TaskRow) (o : Outside) : Prop where
  row : o.row = rowAfter start o.history
  past : ∀ h, h <:+ o.history → FailTogether env h → Consistent (rowAfter start h)

/-- The row of a task under way: running, without an artifact. -/
def Underway (o : Outside) : Prop := ∃ row, o.row = some row ∧ row.status = .running ∧ row.finalArtifact = none

variable {env : Env} {start : Option TaskRow} {o : Outside}

theorem Ledger.consistent (h : Ledger env start o) (hf : FailTogether env o.history) : Consistent o.row := by
  rw [h.row]; exact h.past _ (List.suffix_refl _) hf

theorem Ledger.cons (h : Ledger env start o) {e : Event} {o' : Outside} (hh : o'.history = e :: o.history)
    (hrow : o'.row = rowStep o.row e) (hc : FailTogether env o'.history → Consistent o'.row) :
    Ledger env start o' := by
  have hrow' : o'.row = rowAfter start o'.history := by rw [hrow, hh, h.row]; rfl
  refine ⟨hrow', fun k hk hf => ?_⟩
  rw [hh, List.suffix_cons_iff] at hk
  rcases hk with rfl | hk
  · rw [hrow', hh] at hc; exact hc hf
  · exact h.past k hk hf

/-- An event that commits nothing. -/
theorem Ledger.note (h : Ledger env start o) {e : Event} (he : ∀ row, rowStep row e = row) :
    Ledger env start (o.note e) :=
  h.cons rfl (he o.row).symm fun hf => h.consistent hf.tail

theorem Ledger.withStatus (h : Ledger env start o) {status : TaskStatus}
    (hc : FailTogether env (o.withStatus status).history → Consistent (o.withStatus status).row) :
    Ledger env start (o.withStatus status) := h.cons rfl rfl hc

theorem Ledger.withArtifact (h : Ledger env start o) {a : ResultArtifact}
    (hc : Consistent (o.withArtifact a).row) : Ledger env start (o.withArtifact a) := h.cons rfl rfl fun _ => hc

/-- Without an artifact any status is consistent. -/
theorem consistent_withStatus (ha : ∀ row, o.row = some row → row.finalArtifact = none) (status : TaskStatus) :
    Consistent (o.withStatus status).row := by
  intro r hr _ a hra
  obtain ⟨row, hrow, rfl⟩ := Option.map_eq_some_iff.mp (show o.row.map _ = some r from hr)
  rw [show row.finalArtifact = _ from ha row hrow] at hra
  cases hra

theorem Underway.artifact (h : Underway o) {row : TaskRow} (hr : o.row = some row) :
    row.finalArtifact = none := by
  obtain ⟨row', hrow, -, ha⟩ := h
  rw [hrow] at hr; cases hr; exact ha

theorem Underway.congr {o' : Outside} (h : Underway o) (hr : o'.row = o.row) : Underway o' := by
  obtain ⟨row, hrow, hs⟩ := h
  exact ⟨row, hr.trans hrow, hs⟩

section

variable {cfg : Config} {now : ℚ}

/-- An event was noted that commits nothing. -/
def Silent (o o' : Outside) : Prop := ∃ e : Event, (∀ row, rowStep row e = row) ∧ o' = o.note e

theorem row_of_silent {o' : Outside} (hs : ReflTransGen Silent o o') : o'.row = o.row := by
  induction hs with
  | refl => rfl
  | tail _ hs ih =>
    obtain ⟨e, -, rfl⟩ := hs
    exact ih

theorem Ledger.silent {o' : Outside} (h : Ledger env start o) (hs : ReflTransGen Silent o o') :
    Ledger env start o' := by
  induction hs with
  | refl => exact h
  | tail _ hs ih =>
    obtain ⟨e, he, rfl⟩ := hs
    exact ih.note he

theorem silent_moves {c c' : Ctx} (hm : ReflTransGen (Move env cfg now) c c') :
    ReflTransGen Silent c.outside c'.outside := by
  induction hm with
  | refl => exact .refl
  | tail _ hm ih =>
    cases hm with
    | ready => exact ih.tail ⟨_, fun _ => rfl, rfl⟩
    | skip => exact ih
    | expire => exact ih
    | again => exact ih.tail ⟨_, fun _ => rfl, rfl⟩

/-- `_advance` commits nothing, whether it returns or raises. -/
theorem silent_advance (env : Env) (cfg : Config) (now : ℚ) {s : TaskState} (hw : s.Wf) (o : Outside) :
    ReflTransGen Silent o ((advance env cfg now).run ⟨s, o⟩).2.outside := by
  rcases advance_run env cfg now ⟨s, o⟩ hw with ⟨c, h1, hm, -⟩ | ⟨e, c, m, h1, hm, hf⟩
  · rw [h1]; exact silent_moves hm
  · rw [h1]
    have hs := silent_moves hm
    cases hf with
    | ready => exact hs.tail ⟨_, fun _ => rfl, rfl⟩
    | again => exact hs.tail ⟨_, fun _ => rfl, rfl⟩

/-- So does persisting an operation's result, as far as the task's row goes. -/
theorem silent_persistResult (env : Env) (job : Job) (st : Option TaskState) (o : Outside) (g : Int) :
    ReflTransGen Silent o ((persistResult env job).run ⟨st, o, g⟩).2.outside := by
  have key : ∀ (n : Nat) (o : Outside), ReflTransGen Silent o
      ((persistAttempts env job.operation job.content n).run ⟨st, o, g⟩).2.outside := by
    intro n
    induction n with
    | zero => exact fun _ => .refl
    | succ n ih =>
      intro o
      have hsave : (saveResult env job.operation job.content).run o =
          if env.raises o.history (.saveResult job.operation) then
            (.error .external, o.note (.resultFailed job.operation))
          else (.ok (), o.note (.resultSaved job.operation job.content)) := by
        simp only [saveResult, Exec.run_bind, Exec.run_get]
        split <;> rfl
      simp only [persistAttempts, storeCall, Exec.run_attempt, Exec.run_zoom, hsave]
      cases env.raises o.history (.saveResult job.operation) with
      | true => exact (ih (o.note (.resultFailed job.operation))).head ⟨_, fun _ => rfl, rfl⟩
      | false => exact .single ⟨_, fun _ => rfl, rfl⟩
  exact key persistRetries o

end

end MasResearch.L3
