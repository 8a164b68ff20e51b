import MasResearch.L2Evaluation.Metrics
import MasResearch.L3Runs.Deployment

/-!
# What the evaluation harness says of a deployment's artifacts (`evaluation/run.py`)

The harness has a check of its own for questions, laxer than the agent's on a blank stem
(`Bugs.BlankStems`). On an artifact that is no matter: the agents keep nothing that the harness
would not count, and what is loaded after a crash is what they kept.

* `artifacts_evaluated`: no artifact makes the harness raise, and all questions are well formed.
-/
namespace MasResearch.L3

open MasResearch.L1 MasResearch.L2 MasResearch.L2.Intrinsic

section

variable {κ σ : Type} [LinearOrder κ]

/-- **Every artifact is evaluated.** In every reachable deployment, after any number of crashes and
failures, the harness measures the artifact of whatever was finalized, against any source text: a
summary has its three sections, each question is well formed, and every figure is in its range. -/
theorem artifacts_evaluated (w : Workers κ σ) (ε : Type) {env : Env} (hv : env.validators.Faithful) (cfg : Config)
    {starts : Task → Prop} {d : Deployment} (hr : (deployment (w.Informed ε) starts env cfg).Reachable d)
    {tid : String} {cause : Cause} {status : TaskStatus} {s : TaskState}
    (hm : .finalizing cause status s ∈ (d.system.coordinator.outside tid).history) (now : ℚ) (py : Python)
    (sourceText : String) :
    ∃ artifact metrics, assembleArtifact env.validators s status now = .ok artifact ∧
      intrinsics py (payloadDump artifact.result) sourceText = .ok metrics ∧ Measures artifact.result metrics := by
  obtain ⟨hsys, -⟩ := (deployed_inductive w ε starts env cfg).reachable d hr
  have hcorr := (correlated_inductive (w.Informed ε) (formedInputs w.quality starts) env cfg).reachable _ hsys
  obtain ⟨artifact, hok, -, hmeets⟩ := finalized_assembles hv hcorr hm now
  obtain ⟨metrics, hmetrics, hmeasures⟩ := intrinsics_measure py hmeets sourceText
  exact ⟨artifact, metrics, hok, hmetrics, hmeasures⟩

/-- Floats without an error. -/
def exactFloats : Floats where
  nearest := id
  nearest_mono := monotone_id
  nearest_intCast _ _ := rfl
  nearest_error _ _ := by simp
  sum := List.sum
  sum_error xs _ _ := by rw [sub_self, abs_zero]; positivity

/-- Without case and without numerals. -/
def plainPython : Python := ⟨Env.validating, id, fun _ => .error .external, exactFloats⟩

theorem artifacts_evaluated_workshop : ∃ s artifact metrics,
    (∀ sub ∈ (buildPlan workshop).subtasks, (s.results.content? sub.id).isSome = true) ∧
    assembleArtifact Env.validating.validators s artifact.status 1 = .ok artifact ∧
    intrinsics plainPython (payloadDump artifact.result) "graphs" = .ok metrics ∧ Measures artifact.result metrics := by
  obtain ⟨hr, hended⟩ := Workshop.reachable_deployed (fun _ => True) trivial
  obtain ⟨cause, status, s, hm, hfull⟩ := Workshop.exists_full
  rw [← hended] at hm
  obtain ⟨artifact, metrics, hok, hmetrics, hmeasures⟩ := artifacts_evaluated Workers.crew Unit
    (faithful_ofDumps : Env.validating.validators.Faithful) {} hr hm 1 plainPython "graphs"
  exact ⟨s, artifact, metrics, hfull, by rwa [assembleArtifact_status hok], hmetrics, hmeasures⟩

end

end MasResearch.L3
