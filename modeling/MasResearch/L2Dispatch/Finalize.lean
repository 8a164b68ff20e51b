import MasResearch.L2Dispatch.Steps

/-!
# `_finalize` and `set_status`, by outcome

The two store calls of a finalization are separate commits. `FinalizeOutcome`
lists the four places where `_finalize` can end: the artifact does not assemble,
it is not saved, it is saved and the status is not set, or both are stored.
`FinalizeSucceeds` says in advance when it is the last one.
-/
namespace MasResearch.L2

open MasResearch.L1 TaskState

/-- A committed `save_artifact`. -/
def Outside.withArtifact (o : Outside) (a : ResultArtifact) : Outside :=
  { o.note (.artifactSaved a) with
    row := o.row.map fun row => { row with finalArtifact := some a, stats := some a.stats } }

/-- A committed `set_status`. -/
def Outside.withStatus (o : Outside) (status : TaskStatus) : Outside :=
  { o.note (.statusSet status) with row := o.row.map fun row => { row with status := status } }

/-- The outside when `_finalize` has counted the status and assembles the artifact. -/
def Outside.finalizing (o : Outside) (cause : Cause) (s : TaskState) : Outside :=
  o.note (.finalizing cause (determineFinalStatus s.plan s.results) s)

section

variable (env : Env)

theorem run_setStatus (status : TaskStatus) (o : Outside) :
    (∃ e, (setStatus env status).run o = (.error e, o.note (.statusFailed status)) ∧
      (env.raises o.history (.setStatus status) = true ∨ o.row = none)) ∨
    (setStatus env status).run o = (.ok (), o.withStatus status) ∧
      env.raises o.history (.setStatus status) = false ∧ o.row.isSome = true := by
  simp only [setStatus, Exec.run_bind, Exec.run_get]
  cases hr : env.raises o.history (.setStatus status) with
  | true => exact .inl ⟨_, rfl, .inl rfl⟩
  | false =>
    cases hrow : o.row with
    | none => exact .inl ⟨_, rfl, .inr rfl⟩
    | some row => refine .inr ⟨?_, rfl, rfl⟩; simp [Outside.withStatus, hrow]

theorem run_saveArtifact (a : ResultArtifact) (o : Outside) :
    (∃ e, (saveArtifact env a).run o = (.error e, o.note .artifactFailed) ∧
      (env.raises o.history .saveArtifact = true ∨ o.row = none)) ∨
    (saveArtifact env a).run o = (.ok (), o.withArtifact a) ∧
      env.raises o.history .saveArtifact = false ∧ o.row.isSome = true := by
  simp only [saveArtifact, Exec.run_bind, Exec.run_get]
  cases hr : env.raises o.history .saveArtifact with
  | true => exact .inl ⟨_, rfl, .inl rfl⟩
  | false =>
    cases hrow : o.row with
    | none => exact .inl ⟨_, rfl, .inr rfl⟩
    | some row => refine .inr ⟨?_, rfl, rfl⟩; simp [Outside.withArtifact, hrow]

/-- Where a `_finalize` of `s` ended, and the outside it left. -/
inductive FinalizeOutcome (env : Env) (cause : Cause) (now : ℚ) (s : TaskState) (o : Outside) :
    Except PyError Unit → Outside → Prop
  | rejected {e : PyError}
      (ha : assembleArtifact env.validators s (determineFinalStatus s.plan s.results) now = .error e) :
      FinalizeOutcome env cause now s o (.error e) (o.finalizing cause s)
  | unsaved {a : ResultArtifact} (e : PyError)
      (ha : assembleArtifact env.validators s (determineFinalStatus s.plan s.results) now = .ok a)
      (hr : env.raises (o.finalizing cause s).history .saveArtifact = true ∨ o.row = none) :
      FinalizeOutcome env cause now s o (.error e) ((o.finalizing cause s).note .artifactFailed)
  | unset {a : ResultArtifact} (e : PyError)
      (ha : assembleArtifact env.validators s (determineFinalStatus s.plan s.results) now = .ok a)
      (hr : env.raises ((o.finalizing cause s).withArtifact a).history (.setStatus a.status) = true) :
      FinalizeOutcome env cause now s o (.error e)
        (((o.finalizing cause s).withArtifact a).note (.statusFailed a.status))
  | stored {a : ResultArtifact}
      (ha : assembleArtifact env.validators s (determineFinalStatus s.plan s.results) now = .ok a)
      (hrow : o.row.isSome = true) (hs : env.raises (o.finalizing cause s).history .saveArtifact = false)
      (hr : env.raises ((o.finalizing cause s).withArtifact a).history (.setStatus a.status) = false) :
      FinalizeOutcome env cause now s o (.ok ()) (((o.finalizing cause s).withArtifact a).withStatus a.status)

theorem run_finalize_outcome (cause : Cause) (now : ℚ) (s : TaskState) (o : Outside) :
    ∃ r o', (finalize env cause now).run ⟨s, o⟩ = (r, ⟨s, o'⟩) ∧ FinalizeOutcome env cause now s o r o' := by
  have hnote : (⟨s, o⟩ : Ctx).note (.finalizing cause (determineFinalStatus s.plan s.results) s) =
      ⟨s, o.finalizing cause s⟩ := rfl
  simp only [finalize, noteEvent, outward, Exec.run_bind, Exec.run_get, Exec.run_modify, hnote]
  cases ha : assembleArtifact env.validators s (determineFinalStatus s.plan s.results) now with
  | error e => exact ⟨_, _, rfl, .rejected ha⟩
  | ok a =>
    have hstatus := assembleArtifact_status ha
    simp only [Exec.run_bind, Exec.run_zoom]
    rcases run_saveArtifact env a (o.finalizing cause s) with ⟨e, h1, hr⟩ | ⟨h1, hs, hrow⟩
    · rw [h1]; exact ⟨_, _, rfl, .unsaved e ha hr⟩
    rw [h1]
    dsimp only
    rw [← hstatus]
    rcases run_setStatus env a.status ((o.finalizing cause s).withArtifact a) with ⟨e, h2, hr⟩ | ⟨h2, hr, -⟩
    · rw [h2]
      refine ⟨_, _, rfl, .unset e ha (hr.resolve_right fun hn => ?_)⟩
      rw [show ((o.finalizing cause s).withArtifact a).row = o.row.map _ from rfl, Option.map_eq_none_iff] at hn
      have hrow : o.row.isSome = true := hrow
      rw [hn] at hrow; cases hrow
    · rw [h2]; exact ⟨_, _, rfl, .stored ha hrow hs hr⟩

/-- The artifact assembles, the row exists, and neither store call raises. -/
def FinalizeSucceeds (cause : Cause) (now : ℚ) (s : TaskState) (o : Outside) : Prop :=
  ∃ a, assembleArtifact env.validators s (determineFinalStatus s.plan s.results) now = .ok a ∧
    o.row.isSome = true ∧ env.raises (o.finalizing cause s).history .saveArtifact = false ∧
    env.raises ((o.finalizing cause s).withArtifact a).history (.setStatus a.status) = false

variable {env}

/-- `_finalize` returns exactly when it is bound to succeed. -/
theorem FinalizeOutcome.ok_iff {cause : Cause} {now : ℚ} {s : TaskState} {o o' : Outside}
    {r : Except PyError Unit} (h : FinalizeOutcome env cause now s o r o') :
    r = .ok () ↔ FinalizeSucceeds env cause now s o := by
  cases h with
  | rejected ha =>
    refine iff_of_false (fun he => (by cases he)) ?_
    rintro ⟨a, ha', -⟩
    rw [ha] at ha'; cases ha'
  | unsaved e ha hr =>
    refine iff_of_false (fun he => (by cases he)) ?_
    rintro ⟨a, -, hrow, hs, -⟩
    rcases hr with hr | hr
    · rw [hs] at hr; cases hr
    · rw [hr] at hrow; cases hrow
  | unset e ha hr =>
    refine iff_of_false (fun he => (by cases he)) ?_
    rintro ⟨a', ha', -, -, hs⟩
    rw [ha] at ha'; cases ha'
    rw [hs] at hr; cases hr
  | stored ha hrow hs hr => exact iff_of_true rfl ⟨_, ha, hrow, hs, hr⟩

/-- A finalization that returned leaves a terminal row with an artifact of the same status. -/
theorem FinalizeOutcome.row {cause : Cause} {now : ℚ} {s : TaskState} {o o' : Outside}
    (h : FinalizeOutcome env cause now s o (.ok ()) o') :
    ∃ row a, o'.row = some row ∧ row.finalArtifact = some a ∧ a.status = row.status ∧
      row.status.terminal = true := by
  cases h with
  | @stored a ha hrow _ _ =>
    obtain ⟨row, hrow⟩ := Option.isSome_iff_exists.mp hrow
    refine ⟨{ row with finalArtifact := some a, stats := some a.stats, status := a.status }, a, ?_, rfl, rfl, ?_⟩
    · simp [Outside.withStatus, Outside.withArtifact, Outside.finalizing, hrow]
    · show a.status.terminal = true
      rw [assembleArtifact_status ha]
      exact determineFinalStatus_terminal _ _

end

end MasResearch.L2
