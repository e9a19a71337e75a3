/- Module: HadesPsTrader/Interaction/Crossing
   layer: library
   digest: Crossings of a line, and when comparing with the last entry alone tells them. -/

import Mathlib.Data.Sign.Defs
import Mathlib.Tactic.Common

set_option autoImplicit false
set_option relaxedAutoImplicit false

namespace HadesPsTrader.Interaction

section

variable (side : Nat → SignType) (start : Nat)

/-- Before entry `n`, the sequence was last strictly on side `σ`. -/
def LastSide (n : Nat) (σ : SignType) : Prop :=
  ∃ m, start ≤ m ∧ m < n ∧ side m = σ ∧ σ ≠ 0 ∧ ∀ k, m < k → k < n → side k = 0

/-- Entry `n` is strictly on side `σ`, where the entry before it was not. -/
structure Arrives (n : Nat) (σ : SignType) : Prop where
  later : start < n
  strict : σ ≠ 0
  here : side n = σ
  elsewhere : side (n - 1) ≠ σ

/-- The reported crossings are changes of the side the sequence was last strictly on: they
alternate, and nothing is reported on a return to that side. -/
structure RealCrossings (reports : Nat → SignType → Prop) : Prop where
  changes : ∀ n σ, reports n σ → LastSide side start n (-σ)
  alternate : ∀ i j σ, i < j → reports i σ → reports j σ → ∃ k, i < k ∧ k < j ∧ reports k (-σ)
  returns : ∀ n σ, LastSide side start n σ → side n = σ → ∀ τ, ¬ reports n τ

/-- Whenever the sequence leaves the line after an entry on it, it leaves to the side opposite to
the one it was last strictly on. -/
def LeavesAcross : Prop :=
  ∀ n, start < n → side (n - 1) = 0 → side n ≠ 0 → LastSide side start n (-side n)

variable {side start}

theorem LastSide.unique {n : Nat} {σ τ : SignType} (first : LastSide side start n σ)
    (second : LastSide side start n τ) : σ = τ := by
  obtain ⟨i, -, i_lt, rfl, i_strict, i_zero⟩ := first
  obtain ⟨j, -, j_lt, rfl, j_strict, j_zero⟩ := second
  rcases lt_trichotomy i j with before | rfl | after
  · exact absurd (i_zero j before j_lt) j_strict
  · rfl
  · exact absurd (j_zero i after i_lt) i_strict

theorem eq_neg_of_ne {σ τ : SignType} (σ_strict : σ ≠ 0) (τ_strict : τ ≠ 0) (apart : σ ≠ τ) :
    σ = -τ := by
  revert σ_strict τ_strict apart
  revert σ τ
  decide

theorem Arrives.lastSide {n : Nat} {σ : SignType} (arrives : Arrives side start n σ)
    (strict : side (n - 1) ≠ 0) : LastSide side start n (-σ) := by
  have later := arrives.later
  have before : side (n - 1) = -σ := eq_neg_of_ne strict arrives.strict arrives.elsewhere
  refine ⟨n - 1, by omega, by omega, before, before ▸ strict, ?_⟩
  intro k after earlier
  omega

theorem exists_arrives {i m : Nat} {σ : SignType} (from_start : start ≤ i) (strict : σ ≠ 0)
    (away : side i ≠ σ) (lt : i < m) (here : side m = σ) :
    ∃ k, i < k ∧ k ≤ m ∧ Arrives side start k σ := by
  induction m with
  | zero => omega
  | succ m ih =>
    by_cases already : side m = σ
    · have apart : i ≠ m := by
        rintro rfl
        exact away already
      obtain ⟨k, after, le, arrives⟩ := ih (by omega) already
      exact ⟨k, after, le.trans m.le_succ, arrives⟩
    · exact ⟨m + 1, lt, le_rfl, by omega, strict, here, already⟩

/-- Comparing with the last entry alone reports real crossings exactly when the sequence never
leaves the line to the side it came from. -/
theorem realCrossings_arrives_iff :
    RealCrossings side start (Arrives side start) ↔ LeavesAcross side start := by
  constructor
  · intro real n later on_line off
    exact real.changes n (side n) ⟨later, off, rfl, by rw [on_line]; exact off.symm⟩
  · intro across
    have changes : ∀ n σ, Arrives side start n σ → LastSide side start n (-σ) := by
      intro n σ arrives
      by_cases on_line : side (n - 1) = 0
      · have strict : side n ≠ 0 := arrives.here ▸ arrives.strict
        have crossed := across n arrives.later on_line strict
        rwa [arrives.here] at crossed
      · exact arrives.lastSide on_line
    refine ⟨changes, ?_, ?_⟩
    · intro i j σ lt first second
      have opposite : -σ ≠ σ := fun same => first.strict (SignType.neg_eq_self_iff.mp same)
      obtain ⟨m, -, earlier, other, strict, between⟩ := changes j σ second
      -- the other side was visited after the first report, which is on side `σ`
      have after : i < m := by
        rcases lt_trichotomy i m with before | rfl | behind
        · exact before
        · exact absurd (other.symm.trans first.here) opposite
        · have line := between i behind lt
          exact absurd (first.here.symm.trans line) first.strict
      have away : side i ≠ -σ := by
        rw [first.here]
        exact opposite.symm
      obtain ⟨k, later, le, arrives⟩ :=
        exists_arrives first.later.le strict away after other
      exact ⟨k, later, le.trans_lt earlier, arrives⟩
    · intro n σ last back τ arrives
      have same : τ = σ := arrives.here.symm.trans back
      have opposite : -τ = τ := ((changes n τ arrives).unique last).trans same.symm
      exact arrives.strict (SignType.neg_eq_self_iff.mp opposite)

end

end HadesPsTrader.Interaction
