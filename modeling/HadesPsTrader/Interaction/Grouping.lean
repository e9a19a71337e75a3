/- Module: HadesPsTrader/Interaction/Grouping
   layer: library
   digest: A stream grouped by a key that never falls: where one group ends and the next begins. -/

import Mathlib.Order.Lattice
import Mathlib.Order.Monotone.Basic
import Mathlib.Tactic.Common

set_option autoImplicit false
set_option relaxedAutoImplicit false

namespace HadesPsTrader.Interaction

/-- Entry `n` is the first of its group, and entry `m` the last of the nonempty group before it. -/
structure Closes {κ : Type} [LinearOrder κ] (key : Nat → κ) (m n : Nat) : Prop where
  first : ∀ k, key k = key n → n ≤ k
  below : key m < key n
  adjacent : ∀ k, key k < key n → key k ≤ key m
  last : ∀ k, key k = key m → k ≤ m

namespace Closes

variable {κ : Type} [LinearOrder κ] {key : Nat → κ} {m n : Nat}

theorem iff_rise (mono : Monotone key) : Closes key m n ↔ n = m + 1 ∧ key m < key n := by
  constructor
  · intro closes
    have before : m < n := mono.reflect_lt closes.below
    refine ⟨?_, closes.below⟩
    -- the entry after `m` is in a later group, and the only later group up to `n` is that of `n`
    have after : ¬ key (m + 1) ≤ key m := by
      intro same
      have here := closes.last (m + 1) (le_antisymm same (mono m.le_succ))
      exact absurd here (Nat.not_succ_le_self m)
    have reached : key (m + 1) = key n := by
      apply le_antisymm (mono before)
      by_contra lower
      exact after (closes.adjacent (m + 1) (not_le.mp lower))
    exact le_antisymm (closes.first (m + 1) reached) before
  · rintro ⟨rfl, rise⟩
    refine ⟨?_, rise, ?_, ?_⟩
    · intro k same
      by_contra before
      have low : key k ≤ key m := mono (Nat.le_of_lt_succ (not_le.mp before))
      exact absurd rise (not_lt.mpr (same ▸ low))
    · intro k lower
      exact mono (Nat.le_of_lt_succ (mono.reflect_lt lower))
    · intro k same
      by_contra after
      have high : key (m + 1) ≤ key k := mono (not_le.mp after)
      exact absurd rise (not_lt.mpr (same ▸ high))

end Closes

end HadesPsTrader.Interaction
