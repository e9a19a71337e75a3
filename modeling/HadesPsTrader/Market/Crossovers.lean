/- Module: HadesPsTrader/Market/Crossovers
   source: src/macd.rs
   digest: Which reported crossovers are changes of the side of the signal line. -/

import Mathlib.Algebra.Order.Ring.Rat
import Mathlib.Tactic.Linarith
import HadesPsTrader.Interaction.Crossing
import HadesPsTrader.Market.MacdSeries

set_option autoImplicit false
set_option relaxedAutoImplicit false

open HadesPsTrader.Interaction

namespace HadesPsTrader.Market

def Crossover.side : Crossover → SignType
  | .bullish => 1
  | .bearish => -1

theorem Crossover.side_ne_zero (d : Crossover) : d.side ≠ 0 := by
  cases d with
  | bullish => decide
  | bearish => decide

theorem crossDirection_iff (prevMacd prevSignal macd signal : ℚ) (d : Crossover) :
    crossDirection (some (prevMacd, prevSignal)) macd signal = some d ↔
      SignType.sign (macd - signal) = d.side ∧ SignType.sign (prevMacd - prevSignal) ≠ d.side := by
  rw [crossDirection]
  cases d with
  | bullish =>
    rw [Crossover.side, sign_eq_one_iff, ne_eq, sign_eq_one_iff, sub_pos, sub_pos, not_lt]
    split_ifs with up down
    · exact iff_of_true rfl up.symm
    · refine iff_of_false (by simp) ?_
      rintro ⟨above, below⟩
      exact up ⟨below, above⟩
    · refine iff_of_false (by simp) ?_
      rintro ⟨above, below⟩
      exact up ⟨below, above⟩
  | bearish =>
    rw [Crossover.side, sign_eq_neg_one_iff, ne_eq, sign_eq_neg_one_iff, sub_neg, sub_neg, not_lt]
    split_ifs with up down
    · refine iff_of_false (by simp) ?_
      rintro ⟨below, -⟩
      exact absurd below up.2.not_gt
    · exact iff_of_true rfl down.symm
    · refine iff_of_false (by simp) ?_
      rintro ⟨below, above⟩
      exact down ⟨above, below⟩

namespace Macd

variable (fast slow signal : Nat) (x : Nat → ℚ)

/-- The side of the signal line that the MACD line is on at close `n`, counted from zero. -/
def side (n : Nat) : SignType :=
  SignType.sign (macdLine fast slow x (n + 1) - signalLine fast slow signal x (n + 1))

def crossings (n : Nat) (σ : SignType) : Prop :=
  ∃ d, ((machine fast slow signal).answer x n).direction = some d ∧ d.side = σ

variable {fast slow signal}

theorem direction_report (macd line : ℚ) (crossing : Option Crossover) :
    (report macd line crossing).direction = crossing := by
  cases crossing <;> rfl

/-- The reported crossovers are the arrivals of the MACD line on a side, from the first close that
has a live close before it. -/
theorem crossings_iff_arrives (fast_pos : 1 ≤ fast) (fast_lt : fast < slow)
    (signal_pos : 1 ≤ signal) (n : Nat) (σ : SignType) :
    crossings fast slow signal x n σ ↔
      Arrives (side fast slow signal x) (slow + signal - 2) n σ := by
  rw [crossings, answer_eq fast_pos fast_lt signal_pos, event]
  by_cases again : slow + signal ≤ n + 1
  · have live : slow + signal ≤ n + 1 + 1 := by omega
    have before : n - 1 + 1 = n := by omega
    rw [if_pos live, if_pos again, direction_report, Nat.add_sub_cancel]
    constructor
    · rintro ⟨d, crossed, rfl⟩
      obtain ⟨here, elsewhere⟩ := (crossDirection_iff _ _ _ _ d).mp crossed
      refine ⟨by omega, d.side_ne_zero, here, ?_⟩
      rwa [side, before]
    · rintro ⟨-, strict, here, elsewhere⟩
      obtain ⟨d, rfl⟩ : ∃ d : Crossover, d.side = σ := by
        rcases SignType.trichotomy σ with rfl | rfl | rfl
        · exact ⟨.bearish, rfl⟩
        · exact absurd rfl strict
        · exact ⟨.bullish, rfl⟩
      rw [side, before] at elsewhere
      exact ⟨d, (crossDirection_iff _ _ _ _ d).mpr ⟨here, elsewhere⟩, rfl⟩
  · refine iff_of_false ?_ ?_
    · rintro ⟨d, crossed, -⟩
      split_ifs at crossed
      · cases crossed
      · cases crossed
    · rintro ⟨later, -⟩
      omega

/-- The reported crossovers are real, and alternate, exactly when the MACD line never leaves the
signal line, after a close that meets it, to the side it came from or without having been off it. -/
theorem crossovers_real_iff (fast_pos : 1 ≤ fast) (fast_lt : fast < slow)
    (signal_pos : 1 ≤ signal) :
    RealCrossings (side fast slow signal x) (slow + signal - 2) (crossings fast slow signal x) ↔
      LeavesAcross (side fast slow signal x) (slow + signal - 2) := by
  have same : crossings fast slow signal x =
      Arrives (side fast slow signal x) (slow + signal - 2) := by
    funext n σ
    exact propext (crossings_iff_arrives x fast_pos fast_lt signal_pos n σ)
  rw [same]
  exact realCrossings_arrives_iff

/-- Closes that rise from a flat line, meet the signal line and leave it upwards again. -/
def touchAndReturn (n : Nat) : ℚ := ([1, 1, 1, 10, 13, 20] : List ℚ).getD n 20

theorem crossovers_real_on_touch :
    RealCrossings (side 1 2 2 touchAndReturn) (2 + 2 - 2) (crossings 1 2 2 touchAndReturn) ↔
      LeavesAcross (side 1 2 2 touchAndReturn) (2 + 2 - 2) :=
  crossovers_real_iff touchAndReturn (by decide) (by decide) (by decide)

/-- Two bullish crossovers in a row, with the MACD line never below the signal line. -/
theorem touch_reports_second_bullish :
    ¬ ∀ fast slow signal : Nat, 1 ≤ fast → fast < slow → 1 ≤ signal → ∀ x,
      RealCrossings (side fast slow signal x) (slow + signal - 2)
        (crossings fast slow signal x) := by
  intro claimed
  have real := claimed 1 2 2 (by decide) (by decide) (by decide) touchAndReturn
  have first : ((machine 1 2 2).answer touchAndReturn 3).direction = some .bullish := by
    decide +kernel
  have second : ((machine 1 2 2).answer touchAndReturn 5).direction = some .bullish := by
    decide +kernel
  have quiet : ((machine 1 2 2).answer touchAndReturn 4).direction = none := by
    decide +kernel
  obtain ⟨k, after, before, d, crossed, -⟩ :=
    real.alternate 3 5 1 (by decide) ⟨.bullish, first, rfl⟩ ⟨.bullish, second, rfl⟩
  have between : k = 4 := by omega
  rw [between, quiet] at crossed
  cases crossed

end Macd

end HadesPsTrader.Market
