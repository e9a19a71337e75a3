/- Module: HadesPsTrader/Interaction/Smoothing
   layer: library
   digest: The closed form of exponential smoothing over any commutative ring. -/

import Mathlib.Algebra.BigOperators.Group.Finset.Basic
import Mathlib.Algebra.BigOperators.Ring.Finset
import Mathlib.Tactic.Ring

set_option autoImplicit false
set_option relaxedAutoImplicit false

namespace HadesPsTrader.Interaction

section

variable {R : Type} [CommRing R]

/-- A seed and `n` inputs, each weighted by `k` and faded by `1 - k` for every input after it. -/
def smoothed (k seed : R) (x : Nat → R) (n : Nat) : R :=
  ∑ j ∈ Finset.range n, k * (1 - k) ^ j * x (n - 1 - j) + (1 - k) ^ n * seed

variable (k seed : R) (x : Nat → R) (n : Nat)

theorem smoothed_zero : smoothed k seed x 0 = seed := by
  rw [smoothed, Finset.sum_range_zero, pow_zero, one_mul, zero_add]

theorem smoothed_succ : smoothed k seed x (n + 1) = x n * k + smoothed k seed x n * (1 - k) := by
  have newest : k * (1 - k) ^ 0 * x (n + 1 - 1 - 0) = x n * k := by
    rw [pow_zero, mul_one, Nat.add_sub_cancel, Nat.sub_zero, mul_comm]
  have faded : ∑ j ∈ Finset.range n, k * (1 - k) ^ (j + 1) * x (n + 1 - 1 - (j + 1)) =
      (∑ j ∈ Finset.range n, k * (1 - k) ^ j * x (n - 1 - j)) * (1 - k) := by
    rw [Finset.sum_mul]
    refine Finset.sum_congr rfl ?_
    intro j _
    have index : n + 1 - 1 - (j + 1) = n - 1 - j := by omega
    rw [index]
    ring
  rw [smoothed, Finset.sum_range_succ', newest, faded, smoothed]
  ring

end

end HadesPsTrader.Interaction
