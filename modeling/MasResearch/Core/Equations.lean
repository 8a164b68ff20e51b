import Mathlib.Data.Set.Basic
import Mathlib.Order.WellFounded

/-!
# Equations over a well-founded dependency relation

An `EqSystem` has an equation for every index in `index`; the right-hand side of
`i` reads a partial assignment at the indices below `i` only, and `below` is
well-founded. Such a system has exactly one solution (`exists_solution`,
`Solution.unique`), and a partial assignment that grows by computing right-hand
sides whose dependencies are known never leaves it:

* `Solution.rhs_eq`: below a solution, a right-hand side whose dependencies are
  assigned already has its final value.
* `Solution.eq_of_total`: an assignment below the solution that covers the indices
  is the solution.
-/
namespace MasResearch

structure EqSystem (ι V : Type) where
  index : Set ι
  below : ι → ι → Prop
  rhs : ι → (ι → Option V) → V
  wf : WellFounded below
  reads : ∀ i p q, (∀ j, below j i → p j = q j) → rhs i p = rhs i q

namespace EqSystem

variable {ι V : Type} (S : EqSystem ι V)

structure Solution (p : ι → Option V) : Prop where
  solves : ∀ i ∈ S.index, p i = some (S.rhs i p)
  outside : ∀ i, i ∉ S.index → p i = none

/-- `p` has the values of `q` wherever it has one. -/
def Below (p q : ι → Option V) : Prop := ∀ i v, p i = some v → q i = some v

variable {S} {p q : ι → Option V}

theorem Solution.unique (hp : S.Solution p) (hq : S.Solution q) : p = q := by
  funext i
  induction i using S.wf.induction with
  | _ i ih =>
    by_cases hi : i ∈ S.index
    · rw [hp.solves i hi, hq.solves i hi, S.reads i p q ih]
    · rw [hp.outside i hi, hq.outside i hi]

open Classical in
/-- The value of `i`, computed from the values below. -/
noncomputable def value (S : EqSystem ι V) : ι → V :=
  S.wf.fix fun i ih => S.rhs i fun j =>
    if h : S.below j i then if j ∈ S.index then some (ih j h) else none else none

open Classical in
noncomputable def solution (S : EqSystem ι V) (i : ι) : Option V :=
  if i ∈ S.index then some (S.value i) else none

theorem exists_solution (S : EqSystem ι V) : S.Solution S.solution where
  solves i hi := by
    rw [solution, if_pos hi, value, S.wf.fix_eq]
    congr 1
    refine S.reads i _ _ fun j hj => ?_
    rw [dif_pos hj]
    rfl
  outside i hi := if_neg hi

/-- A right-hand side whose dependencies are known is final. -/
theorem Solution.rhs_eq (hq : S.Solution q) (hb : Below p q) {i : ι} (hi : i ∈ S.index)
    (hd : ∀ j, S.below j i → (p j).isSome) : q i = some (S.rhs i p) := by
  rw [hq.solves i hi]
  congr 1
  refine S.reads i q p fun j hj => ?_
  obtain ⟨v, hv⟩ := Option.isSome_iff_exists.mp (hd j hj)
  rw [hv, hb j v hv]

theorem Solution.eq_of_total (hq : S.Solution q) (hb : Below p q) (ht : ∀ i ∈ S.index, (p i).isSome) :
    p = q := by
  funext i
  cases hi : p i with
  | some v => exact (hb i v hi).symm
  | none =>
    have hout : i ∉ S.index := fun h => by have := ht i h; rw [hi] at this; cases this
    exact (hq.outside i hout).symm

end EqSystem

end MasResearch
