import Mathlib.Algebra.Field.Rat
import Mathlib.Algebra.Order.Ring.Rat
import Mathlib.Data.Rat.Floor
import Mathlib.Tactic.Linarith
import Mathlib.Tactic.Positivity

/-!
# Rounding

`roundTo` is Python's `round(x, digits)` on exact rationals: to the nearest decimal, ties to
the even one.

* `roundTo_mono`, `roundTo_intCast`: it keeps the order, and whole numbers.
* `le_roundTo`, `roundTo_le`: what is less than half a unit off a decimal is not rounded past it.
-/
namespace MasResearch

/-- The nearest integer, ties to even. -/
def roundHalfEven (y : ℚ) : Int :=
  if y - y.floor < 1 / 2 then y.floor
  else if 1 / 2 < y - y.floor then y.floor + 1
  else if y.floor % 2 = 0 then y.floor else y.floor + 1

/-- `round(x, digits)`. -/
def roundTo (digits : Nat) (x : ℚ) : ℚ := roundHalfEven (x * 10 ^ digits) / 10 ^ digits

theorem floor_le_roundHalfEven (y : ℚ) : y.floor ≤ roundHalfEven y ∧ roundHalfEven y ≤ y.floor + 1 := by
  unfold roundHalfEven
  split_ifs <;> omega

theorem roundHalfEven_mono {x y : ℚ} (h : x ≤ y) : roundHalfEven x ≤ roundHalfEven y := by
  have hfloor : x.floor ≤ y.floor := Rat.le_floor_iff.mpr ((Rat.floor_le x).trans h)
  rcases hfloor.lt_or_eq with hlt | heq
  · have hx := (floor_le_roundHalfEven x).2
    have hy := (floor_le_roundHalfEven y).1
    omega
  · -- the same integer below both, so the fractions are in order
    have hfrac : x - x.floor ≤ y - y.floor := by rw [heq]; linarith
    unfold roundHalfEven
    rw [← heq] at hfrac ⊢
    split_ifs <;> first | omega | linarith

theorem roundHalfEven_intCast (n : Int) : roundHalfEven n = n := by
  have hfloor : (n : ℚ).floor = n := Rat.floor_intCast n
  rw [roundHalfEven, hfloor, sub_self, if_pos (by norm_num)]

theorem roundTo_mono (digits : Nat) {x y : ℚ} (h : x ≤ y) : roundTo digits x ≤ roundTo digits y := by
  have hscale : (0 : ℚ) ≤ 10 ^ digits := by positivity
  have hint := roundHalfEven_mono (mul_le_mul_of_nonneg_right h hscale)
  exact div_le_div_of_nonneg_right (Int.cast_le.mpr hint) hscale

theorem roundTo_intCast (digits : Nat) (n : Int) : roundTo digits n = n := by
  have hscale : (10 : ℚ) ^ digits ≠ 0 := by positivity
  have hcast : (n : ℚ) * 10 ^ digits = ((n * 10 ^ digits : Int) : ℚ) := by push_cast; rfl
  rw [roundTo, hcast, roundHalfEven_intCast]
  push_cast
  exact mul_div_cancel_right₀ _ hscale

/-! ## Decimals -/

/-- A multiple of the last digit. -/
def IsDecimal (digits : Nat) (q : ℚ) : Prop := ∃ n : Int, q = n / 10 ^ digits

theorem isDecimal_roundTo (digits : Nat) (x : ℚ) : IsDecimal digits (roundTo digits x) := ⟨_, rfl⟩

theorem le_roundHalfEven {y : ℚ} {n : Int} (h : n - 1 / 2 < y) : n ≤ roundHalfEven y := by
  rcases le_or_gt (n : ℚ) y with hle | hlt
  · have hround := roundHalfEven_mono hle
    rwa [roundHalfEven_intCast] at hround
  · have hlow : n - 1 ≤ y.floor := Rat.le_floor_iff.mpr (by push_cast; linarith)
    have hhigh : y.floor < n := by exact_mod_cast (Rat.floor_le y).trans_lt hlt
    have hfloor : y.floor = n - 1 := by omega
    have hfrac : 1 / 2 < y - y.floor := by rw [hfloor]; push_cast; linarith
    rw [roundHalfEven, if_neg (not_lt.mpr hfrac.le), if_pos hfrac, hfloor]
    omega

theorem roundHalfEven_le {y : ℚ} {n : Int} (h : y < n + 1 / 2) : roundHalfEven y ≤ n := by
  rcases le_or_gt y (n : ℚ) with hle | hlt
  · have hround := roundHalfEven_mono hle
    rwa [roundHalfEven_intCast] at hround
  · have hlow : n ≤ y.floor := Rat.le_floor_iff.mpr hlt.le
    have hhigh : (y.floor : ℚ) < (n + 1 : Int) := by push_cast; linarith [Rat.floor_le y]
    have hfloor : y.floor = n := by have := Int.cast_lt.mp hhigh; omega
    rw [roundHalfEven, if_pos (by rw [hfloor]; linarith), hfloor]

section

variable {digits : Nat} {q x : ℚ}

theorem le_roundTo (hq : IsDecimal digits q) (h : q - 1 / 2 / 10 ^ digits < x) : q ≤ roundTo digits x := by
  obtain ⟨n, rfl⟩ := hq
  have hscale : (0 : ℚ) < 10 ^ digits := by positivity
  have hscaled := mul_lt_mul_of_pos_right h hscale
  rw [sub_mul, div_mul_cancel₀ _ hscale.ne', div_mul_cancel₀ _ hscale.ne'] at hscaled
  exact div_le_div_of_nonneg_right (Int.cast_le.mpr (le_roundHalfEven hscaled)) hscale.le

theorem roundTo_le (hq : IsDecimal digits q) (h : x < q + 1 / 2 / 10 ^ digits) : roundTo digits x ≤ q := by
  obtain ⟨n, rfl⟩ := hq
  have hscale : (0 : ℚ) < 10 ^ digits := by positivity
  have hscaled := mul_lt_mul_of_pos_right h hscale
  rw [add_mul, div_mul_cancel₀ _ hscale.ne', div_mul_cancel₀ _ hscale.ne'] at hscaled
  exact div_le_div_of_nonneg_right (Int.cast_le.mpr (roundHalfEven_le hscaled)) hscale.le

end

end MasResearch
