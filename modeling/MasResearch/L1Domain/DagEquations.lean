import MasResearch.Core.Equations
import MasResearch.L1Domain.Payloads

/-!
# The equations of a plan

With each agent a function of operation and request payload, a plan determines
its results map: a subtask whose join rule is met has what its agent answers to
the payload built from that same map, any other subtask has `None` (`Solves`).
The equations are an `EqSystem` over the dependencies of the plan
(`solves_iff`), so

* `exists_solves`, `solves_unique`: there is exactly one solution;
* `Solves.value_eq`: a subtask whose dependencies are resolved in a part of the
  solution already has its final value;
* `solves_congr`: the solution does not depend on the order of the requested
  operations.
-/
namespace MasResearch.L1

/-- The content an agent informs for a payload, `none` when it refuses. -/
abbrev Agents := Operation → Content → Option Content

/-- The right-hand side of the equation of `sub`. -/
def subtaskValue (agents : Agents) (task : Task) (sub : Subtask) (r : Results) : Option Content :=
  if JoinMet sub r then agents sub.operation (buildPayload sub task r) else none

structure Solves (agents : Agents) (task : Task) (r : Results) : Prop where
  keys : ∀ sid, sid ∈ r ↔ sid ∈ (buildPlan task).ids
  value : ∀ sub ∈ (buildPlan task).subtasks, r.get? sub.id = some (subtaskValue agents task sub r)

theorem subtaskValue_congr {agents : Agents} {task : Task} {sub : Subtask}
    (hs : sub ∈ (buildPlan task).subtasks) {r r' : Results} (hr : InPlan task r) (hr' : InPlan task r')
    (h : AgreeOn sub r r') : subtaskValue agents task sub r = subtaskValue agents task sub r' := by
  unfold subtaskValue
  rw [buildPayload_congr hs hr hr' h]
  by_cases hj : JoinMet sub r
  · rw [if_pos hj, if_pos ((joinMet_congr h).mp hj)]
  · rw [if_neg hj, if_neg fun hj' => hj ((joinMet_congr h).mpr hj')]

/-! ## The system of equations -/

/-- The part of an assignment on the ids of the plan, as a results map. -/
def onPlan (task : Task) (p : String → Option (Option Content)) : Results :=
  Dict.collect p ((buildPlan task).subtasks.map Subtask.id)

theorem get?_onPlan (task : Task) (p : String → Option (Option Content)) (sid : String) :
    (onPlan task p).get? sid = if sid ∈ (buildPlan task).ids then p sid else none := by
  simp only [onPlan, Dict.get?_collect, Plan.ids, List.mem_toFinset]

theorem inPlan_onPlan (task : Task) (p : String → Option (Option Content)) : InPlan task (onPlan task p) := by
  intro sid hs
  by_contra hn
  rw [Dict.mem_iff_get?, get?_onPlan, if_neg hn] at hs
  cases hs

/-- `j` is a dependency of the subtask `i`. -/
def DependsOn (task : Task) (j i : String) : Prop :=
  ∃ sub ∈ (buildPlan task).subtasks, sub.id = i ∧ j ∈ sub.dependsOn

def rankOf (task : Task) (sid : String) : Nat :=
  ((buildPlan task).get? sid).elim 0 fun sub => rank sub.operation

theorem rankOf_lt {task : Task} {j i : String} (h : DependsOn task j i) : rankOf task j < rankOf task i := by
  obtain ⟨sub, hs, rfl, hd⟩ := h
  obtain ⟨dep, hdep, rfl, -⟩ := get?_of_mem_ids (dep_mem_ids hs hd)
  simp only [rankOf, get?_of_mem hs, get?_of_mem hdep, Option.elim_some]
  exact rank_dep hs hdep hd

def dagSystem (agents : Agents) (task : Task) : EqSystem String (Option Content) where
  index := {sid | sid ∈ (buildPlan task).ids}
  below := DependsOn task
  rhs i p := ((buildPlan task).get? i).bind fun sub => subtaskValue agents task sub (onPlan task p)
  wf := Subrelation.wf rankOf_lt (InvImage.wf (rankOf task) Nat.lt_wfRel.wf)
  reads i p q h := by
    cases hg : (buildPlan task).get? i with
    | none => rfl
    | some sub =>
      obtain ⟨hs, rfl⟩ := Plan.mem_of_get? hg
      refine subtaskValue_congr hs (inPlan_onPlan task p) (inPlan_onPlan task q) fun dep hd => ?_
      rw [get?_onPlan, get?_onPlan, h dep ⟨sub, hs, rfl, hd⟩]

theorem rhs_get? {agents : Agents} {task : Task} {r : Results} (hr : InPlan task r) {sub : Subtask}
    (hs : sub ∈ (buildPlan task).subtasks) :
    (dagSystem agents task).rhs sub.id r.get? = subtaskValue agents task sub r := by
  simp only [dagSystem, get?_of_mem hs, Option.bind_some]
  refine subtaskValue_congr hs (inPlan_onPlan task _) hr fun dep hd => ?_
  rw [get?_onPlan, if_pos (dep_mem_ids hs hd)]

theorem Solves.inPlan {agents : Agents} {task : Task} {r : Results} (h : Solves agents task r) :
    InPlan task r := fun sid hs => (h.keys sid).mp hs

theorem solves_iff {agents : Agents} {task : Task} {r : Results} :
    Solves agents task r ↔ (dagSystem agents task).Solution r.get? := by
  constructor
  · intro h
    refine ⟨fun sid hsid => ?_, fun sid hsid => ?_⟩
    · obtain ⟨sub, hs, rfl⟩ := Plan.mem_ids.mp hsid
      rw [h.value sub hs, rhs_get? h.inPlan hs]
    · exact Dict.not_mem_iff.mp fun hm => hsid ((h.keys sid).mp hm)
  · intro h
    have hin : InPlan task r := fun sid hm => by
      by_contra hn
      rw [Dict.mem_iff_get?, h.outside sid hn] at hm
      cases hm
    refine ⟨fun sid => ⟨hin sid, fun hm => ?_⟩, fun sub hs => ?_⟩
    · exact Dict.mem_of_get? (h.solves sid hm)
    · rw [h.solves sub.id (Plan.mem_ids.mpr ⟨sub, hs, rfl⟩), rhs_get? hin hs]

/-! ## Its solution -/

theorem exists_solves (agents : Agents) (task : Task) : ∃ r, Solves agents task r := by
  have h := (dagSystem agents task).exists_solution
  refine ⟨onPlan task (dagSystem agents task).solution, solves_iff.mpr ?_⟩
  have he : (onPlan task (dagSystem agents task).solution).get? = (dagSystem agents task).solution := by
    funext sid
    rw [get?_onPlan]
    split
    · rfl
    · rename_i hn; exact (h.outside sid hn).symm
  rwa [he]

theorem solves_unique {agents : Agents} {task : Task} {r r' : Results} (h : Solves agents task r)
    (h' : Solves agents task r') (sid : String) : r.get? sid = r'.get? sid :=
  congrFun ((solves_iff.mp h).unique (solves_iff.mp h')) sid

/-- Results with the entries of the solution solve the equations. -/
theorem Solves.of_get? {agents : Agents} {task : Task} {r r' : Results} (h : Solves agents task r)
    (he : ∀ sid, r'.get? sid = r.get? sid) : Solves agents task r' := by
  rw [solves_iff] at h ⊢
  rwa [funext he]

/-- A subtask whose dependencies are resolved in a part of the solution. -/
theorem Solves.value_eq {agents : Agents} {task : Task} {r σ : Results} (h : Solves agents task σ)
    (hx : Extends r σ) {sub : Subtask} (hs : sub ∈ (buildPlan task).subtasks) (hd : DepsResolved sub r) :
    σ.get? sub.id = some (subtaskValue agents task sub r) := by
  have hr : InPlan task r := fun sid hm => h.inPlan sid (hx.mem hm)
  rw [← rhs_get? hr hs]
  refine (solves_iff.mp h).rhs_eq hx (Plan.mem_ids.mpr ⟨sub, hs, rfl⟩) fun dep hdep => ?_
  obtain ⟨sub', hs', he, hdep⟩ := hdep
  obtain rfl := subtask_ext hs' hs he
  exact Dict.mem_iff_get?.mp (hd dep hdep)

/-- A part of the solution that has an entry for every subtask is the solution. -/
theorem Solves.eq_of_total {agents : Agents} {task : Task} {r σ : Results} (h : Solves agents task σ)
    (hx : Extends r σ) (ht : ∀ sid ∈ (buildPlan task).ids, sid ∈ r) (sid : String) :
    r.get? sid = σ.get? sid :=
  congrFun ((solves_iff.mp h).eq_of_total hx fun sid hs => Dict.mem_iff_get?.mp (ht sid hs)) sid

/-- The order of the requested operations does not matter. -/
theorem solves_congr {agents : Agents} {s t : Task} (hid : s.id = t.id) (hdoc : s.documents = t.documents)
    (hreq : ∀ op, op ∈ s.requestedOutputs ↔ op ∈ t.requestedOutputs) {r : Results}
    (h : Solves agents s r) : Solves agents t r := by
  have hmem := mem_buildPlan_congr hid hdoc hreq
  have hids : ∀ sid, sid ∈ (buildPlan s).ids ↔ sid ∈ (buildPlan t).ids := fun sid => by
    simp only [Plan.mem_ids, hmem]
  refine ⟨fun sid => (h.keys sid).trans (hids sid), fun sub hs => ?_⟩
  rw [h.value sub ((hmem sub).mpr hs)]
  simp only [subtaskValue, buildPayload_task hid hdoc]

end MasResearch.L1
