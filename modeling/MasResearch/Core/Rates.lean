import Mathlib.Algebra.Order.BigOperators.Group.List
import Mathlib.Data.List.MinMax
import MasResearch.Core.Dict
import MasResearch.Core.Rounding

/-!
# Means, floats and counts

`mean` is the exact mean of a list and `counter` the dictionary of `collections.Counter`. `Floats`
is binary floating point, as far as it is relied on; what a quotient or a decimal becomes is a
parameter with an error bound.

* `Floats.mean_near`: the computed mean is close to the exact one.
* `Floats.least_le_mean`, `Floats.mean_le_greatest`: of floats that stand for decimals, the rounded
  mean lies between the rounded least and greatest.
* `getD_counter`: a counter counts.
-/
namespace MasResearch

/-! ## Means -/

def mean (xs : List ℚ) : ℚ := xs.sum / xs.length

section

variable {xs : List ℚ} {m : ℚ}

theorem le_mean (hne : xs ≠ []) (h : ∀ x ∈ xs, m ≤ x) : m ≤ mean xs := by
  have hpos : (0 : ℚ) < xs.length := by exact_mod_cast List.length_pos_of_ne_nil hne
  rw [mean, le_div_iff₀ hpos]
  have := List.card_nsmul_le_sum xs m h
  rwa [nsmul_eq_mul, mul_comm] at this

theorem mean_le (hne : xs ≠ []) (h : ∀ x ∈ xs, x ≤ m) : mean xs ≤ m := by
  have hpos : (0 : ℚ) < xs.length := by exact_mod_cast List.length_pos_of_ne_nil hne
  rw [mean, div_le_iff₀ hpos]
  have := List.sum_le_card_nsmul xs m h
  rwa [nsmul_eq_mul, mul_comm] at this

end

/-! ## Floats -/

/-- Binary floats of double precision: `nearest` is the one that a quotient of integers, a literal
or a decimal becomes, where it is in range, and `sum` the built-in `sum` of floats. -/
structure Floats where
  nearest : ℚ → ℚ
  nearest_mono : Monotone nearest
  nearest_intCast : ∀ n : Int, |n| ≤ 2 ^ 53 → nearest n = n
  nearest_error : ∀ x, |x| ≤ 2 → |nearest x - x| ≤ 1 / 2 ^ 53
  sum : List ℚ → ℚ
  sum_error : ∀ xs : List ℚ, xs.length ≤ 2 ^ 20 → (∀ x ∈ xs, |x| ≤ 1) → |sum xs - xs.sum| ≤ xs.length / 2 ^ 30

namespace Floats

/-- `round(x, digits)` of a float. -/
def round (fl : Floats) (digits : Nat) (x : ℚ) : ℚ := fl.nearest (roundTo digits x)

/-- `sum(xs) / len(xs)` of floats. -/
def mean (fl : Floats) (xs : List ℚ) : ℚ := fl.nearest (fl.sum xs / xs.length)

variable (fl : Floats)

theorem round_mono (digits : Nat) {x y : ℚ} (h : x ≤ y) : fl.round digits x ≤ fl.round digits y :=
  fl.nearest_mono (roundTo_mono digits h)

theorem round_intCast (digits : Nat) {n : Int} (h : |n| ≤ 2 ^ 53) : fl.round digits n = n := by
  rw [round, roundTo_intCast, fl.nearest_intCast n h]

/-- What lies above a whole number is rounded to something above it. -/
theorem le_round (digits : Nat) {n : Int} (h : |n| ≤ 2 ^ 53) {x : ℚ} (hx : n ≤ x) :
    n ≤ fl.round digits (fl.nearest x) := by
  have hnear := fl.round_mono digits (fl.nearest_mono hx)
  rwa [fl.nearest_intCast n h, fl.round_intCast digits h] at hnear

theorem round_le (digits : Nat) {n : Int} (h : |n| ≤ 2 ^ 53) {x : ℚ} (hx : x ≤ n) :
    fl.round digits (fl.nearest x) ≤ n := by
  have hnear := fl.round_mono digits (fl.nearest_mono hx)
  rwa [fl.nearest_intCast n h, fl.round_intCast digits h] at hnear

theorem abs_nearest_le {q : ℚ} (h : |q| ≤ 1) : |fl.nearest q| ≤ 1 := by
  have hone : fl.nearest 1 = 1 := by exact_mod_cast fl.nearest_intCast 1 (by norm_num)
  have hneg : fl.nearest (-1) = -1 := by exact_mod_cast fl.nearest_intCast (-1) (by norm_num)
  obtain ⟨hlow, hhigh⟩ := abs_le.mp h
  exact abs_le.mpr ⟨hneg ▸ fl.nearest_mono hlow, hone ▸ fl.nearest_mono hhigh⟩

/-- The mean of floats between -1 and 1 has no more error than the sum has for each. -/
theorem mean_near {xs : List ℚ} (hne : xs ≠ []) (hlen : xs.length ≤ 2 ^ 20) (hx : ∀ x ∈ xs, |x| ≤ 1) :
    |fl.mean xs - MasResearch.mean xs| ≤ 1 / 2 ^ 29 := by
  have hpos : (0 : ℚ) < xs.length := by exact_mod_cast List.length_pos_of_ne_nil hne
  have hquot : |fl.sum xs / xs.length - MasResearch.mean xs| ≤ 1 / 2 ^ 30 := by
    rw [MasResearch.mean, ← sub_div, abs_div, abs_of_pos hpos, div_le_iff₀ hpos, one_div_mul_eq_div]
    exact fl.sum_error xs hlen hx
  have hlow : -1 ≤ MasResearch.mean xs := le_mean hne fun x hmem => (abs_le.mp (hx x hmem)).1
  have hhigh : MasResearch.mean xs ≤ 1 := mean_le hne fun x hmem => (abs_le.mp (hx x hmem)).2
  obtain ⟨hquot1, hquot2⟩ := abs_le.mp hquot
  have hsmall : |fl.sum xs / xs.length| ≤ 2 := abs_le.mpr ⟨by linarith, by linarith⟩
  obtain ⟨hnear1, hnear2⟩ := abs_le.mp (fl.nearest_error _ hsmall)
  exact abs_le.mpr ⟨by unfold mean; linarith, by unfold mean; linarith⟩

/-! ### Floats that stand for decimals -/

/-- The digits of a decimal are not lost. -/
theorem roundTo_nearest {q : ℚ} (hq : IsDecimal 4 q) (h : |q| ≤ 1) : roundTo 4 (fl.nearest q) = q := by
  obtain ⟨hnear1, hnear2⟩ := abs_le.mp (fl.nearest_error q (h.trans (by norm_num)))
  exact le_antisymm (roundTo_le hq (by linarith)) (le_roundTo hq (by linarith))

section

variable {qs : List ℚ}

theorem mean_nearest_near (hne : qs ≠ []) (hlen : qs.length ≤ 2 ^ 20) (hq : ∀ q ∈ qs, |q| ≤ 1) :
    |fl.mean (qs.map fl.nearest) - MasResearch.mean (qs.map fl.nearest)| ≤ 1 / 2 ^ 29 := by
  refine fl.mean_near (by simpa using hne) (by simpa using hlen) fun x hx => ?_
  obtain ⟨q, hmem, rfl⟩ := List.mem_map.mp hx
  exact fl.abs_nearest_le (hq q hmem)

/-- The error of the mean is far less than half of the last digit. -/
theorem least_le_mean (hne : qs ≠ []) (hlen : qs.length ≤ 2 ^ 20) (hq : ∀ q ∈ qs, IsDecimal 4 q ∧ |q| ≤ 1) :
    fl.round 4 ((qs.map fl.nearest).min?.getD 0) ≤ fl.round 4 (fl.mean (qs.map fl.nearest)) := by
  have hmap : qs.map fl.nearest ≠ [] := by simpa using hne
  obtain ⟨q, hmem, hmin⟩ := List.mem_map.mp (List.min_mem hmap)
  have hleast : fl.nearest q ≤ MasResearch.mean (qs.map fl.nearest) :=
    le_mean hmap fun x hx => hmin ▸ List.min_le_of_mem hx
  have hmean := abs_le.mp (fl.mean_nearest_near hne hlen fun q hq' => (hq q hq').2)
  have hnear := abs_le.mp (fl.nearest_error q ((hq q hmem).2.trans (by norm_num)))
  rw [List.min?_eq_some_min hmap, Option.getD_some, ← hmin, round, fl.roundTo_nearest (hq q hmem).1 (hq q hmem).2]
  exact fl.nearest_mono (le_roundTo (hq q hmem).1 (by linarith [hmean.1, hnear.1]))

theorem mean_le_greatest (hne : qs ≠ []) (hlen : qs.length ≤ 2 ^ 20) (hq : ∀ q ∈ qs, IsDecimal 4 q ∧ |q| ≤ 1) :
    fl.round 4 (fl.mean (qs.map fl.nearest)) ≤ fl.round 4 ((qs.map fl.nearest).max?.getD 0) := by
  have hmap : qs.map fl.nearest ≠ [] := by simpa using hne
  obtain ⟨q, hmem, hmax⟩ := List.mem_map.mp (List.max_mem hmap)
  have hgreatest : MasResearch.mean (qs.map fl.nearest) ≤ fl.nearest q :=
    mean_le hmap fun x hx => hmax ▸ List.le_max_of_mem hx
  have hmean := abs_le.mp (fl.mean_nearest_near hne hlen fun q hq' => (hq q hq').2)
  have hnear := abs_le.mp (fl.nearest_error q ((hq q hmem).2.trans (by norm_num)))
  rw [List.max?_eq_some_max hmap, Option.getD_some, ← hmax, round, round,
    fl.roundTo_nearest (hq q hmem).1 (hq q hmem).2]
  exact fl.nearest_mono (roundTo_le (hq q hmem).1 (by linarith [hmean.2, hnear.2]))

end

end Floats

/-! ## Counts -/

section

variable {κ : Type} [DecidableEq κ]

/-- `Counter(xs)`. -/
def counter (xs : List κ) : Dict κ Nat := xs.foldl (fun counts x => counts.set x (counts.getD x 0 + 1)) ∅

theorem getD_foldl_count (k : κ) : ∀ (xs : List κ) (counts : Dict κ Nat),
    (xs.foldl (fun counts x => counts.set x (counts.getD x 0 + 1)) counts).getD k 0 = counts.getD k 0 + xs.count k
  | [], _ => rfl
  | x :: xs, counts => by
    rw [List.foldl_cons, getD_foldl_count k xs, List.count_cons, Dict.getD_eq, Dict.get?_set]
    by_cases h : k = x
    · rw [h]; simp; omega
    · have h' : ¬ x = k := fun he => h he.symm
      simp [h, h', Dict.getD_eq]

theorem getD_counter (xs : List κ) (k : κ) : (counter xs).getD k 0 = xs.count k := by
  rw [counter, getD_foldl_count]
  simp [Dict.getD_eq]

end

end MasResearch
