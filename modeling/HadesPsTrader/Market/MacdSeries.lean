/- Module: HadesPsTrader/Market/MacdSeries
   source: src/macd.rs
   digest: The chained averages of the indicator are the textbook MACD of its closes. -/

import Mathlib.Tactic.FieldSimp
import HadesPsTrader.Interaction.Machine
import HadesPsTrader.Interaction.Smoothing
import HadesPsTrader.Market.Macd

set_option autoImplicit false
set_option relaxedAutoImplicit false

open HadesPsTrader.Interaction

namespace HadesPsTrader.Market

/-- The exponential moving average of the first `n` inputs, with `k = 2 / (period + 1)`: the mean
of the first `period` of them, smoothed with each input after these. -/
def emaOf (period : Nat) (x : Nat → ℚ) (n : Nat) : ℚ :=
  ∑ j ∈ Finset.range (n - period),
      (2 / (period + 1)) * (1 - 2 / (period + 1)) ^ j * x (n - 1 - j) +
    (1 - 2 / (period + 1)) ^ (n - period) * ((∑ j ∈ Finset.range period, x j) / period)

def macdLine (fast slow : Nat) (x : Nat → ℚ) (n : Nat) : ℚ := emaOf fast x n - emaOf slow x n

/-- The signal line after `n` closes: the average of the MACD line from close `slow` on. -/
def signalLine (fast slow signal : Nat) (x : Nat → ℚ) (n : Nat) : ℚ :=
  emaOf signal (fun j => macdLine fast slow x (slow + j)) (n + 1 - slow)

theorem emaOf_eq_smoothed {period n : Nat} (le : period ≤ n) (x : Nat → ℚ) :
    emaOf period x n =
      smoothed (2 / (period + 1) : ℚ) ((∑ j ∈ Finset.range period, x j) / period)
        (fun i => x (period + i)) (n - period) := by
  rw [emaOf, smoothed]
  congr 1
  refine Finset.sum_congr rfl ?_
  intro j mem
  have lt := Finset.mem_range.mp mem
  have index : period + (n - period - 1 - j) = n - 1 - j := by omega
  rw [index]

theorem emaOf_seed (period : Nat) (x : Nat → ℚ) :
    emaOf period x period = (∑ j ∈ Finset.range period, x j) / period := by
  rw [emaOf_eq_smoothed le_rfl, Nat.sub_self, smoothed_zero]

theorem emaOf_succ {period n : Nat} (le : period ≤ n) (x : Nat → ℚ) :
    emaOf period x (n + 1) =
      x n * (2 / (period + 1)) + emaOf period x n * (1 - 2 / (period + 1)) := by
  rw [emaOf_eq_smoothed le, emaOf_eq_smoothed (le.trans n.le_succ), Nat.succ_sub le,
    smoothed_succ, Nat.add_sub_cancel' le]

namespace Ema

def machine (period : Nat) : Machine Ema ℚ (Option ℚ) where
  start := new period
  step := update

/-- The average after `n` inputs: the seed still counts, or the average is live. -/
def after (period : Nat) (x : Nat → ℚ) (n : Nat) : Ema :=
  if n < period then ⟨period, 2 / (period + 1), none, ∑ j ∈ Finset.range n, x j, n⟩
  else ⟨period, 2 / (period + 1), some (emaOf period x n), ∑ j ∈ Finset.range period, x j, period⟩

private theorem update_seeding (period : Nat) (k sum : ℚ) (count : Nat) (x : ℚ) :
    (⟨period, k, none, sum, count⟩ : Ema).update x =
      if period ≤ count + 1 then
        (⟨period, k, some ((sum + x) / (count + 1 : Nat)), sum + x, count + 1⟩,
          some ((sum + x) / (count + 1 : Nat)))
      else (⟨period, k, none, sum + x, count + 1⟩, none) := rfl

private theorem update_live (period : Nat) (k value sum : ℚ) (count : Nat) (x : ℚ) :
    (⟨period, k, some value, sum, count⟩ : Ema).update x =
      (⟨period, k, some (x * k + value * (1 - k)), sum, count⟩,
        some (x * k + value * (1 - k))) := rfl

theorem update_after (period : Nat) (x : Nat → ℚ) (n : Nat) :
    (after period x n).update (x n) =
      (after period x (n + 1),
        if period ≤ n + 1 then some (emaOf period x (n + 1)) else none) := by
  rw [after, after]
  by_cases warming : n < period
  · rw [if_pos warming, update_seeding, ← Finset.sum_range_succ]
    by_cases seeded : period ≤ n + 1
    · have exact_count : period = n + 1 := by omega
      subst exact_count
      rw [if_pos le_rfl, if_pos le_rfl, if_neg (Nat.lt_irrefl _), emaOf_seed]
    · rw [if_neg seeded, if_neg seeded, if_pos (not_le.mp seeded)]
  · have live : period ≤ n := not_lt.mp warming
    have still : ¬ n + 1 < period := by omega
    have reached : period ≤ n + 1 := by omega
    rw [if_neg warming, update_live, if_neg still, if_pos reached, emaOf_succ live]

theorem state_eq {period : Nat} (pos : 1 ≤ period) (x : Nat → ℚ) (n : Nat) :
    (machine period).state x n = after period x n := by
  induction n with
  | zero =>
    rw [after, if_pos (Nat.lt_of_succ_le pos), Finset.sum_range_zero]
    rfl
  | succ n ih =>
    have stepped : (machine period).state x (n + 1) =
        (((machine period).state x n).update (x n)).1 := rfl
    rw [stepped, ih, update_after]

end Ema

def MacdEvent.snapshot : MacdEvent → Option MacdSnapshot
  | .warmup => none
  | .noCross s => some s
  | .crossover s _ => some s

def MacdEvent.direction : MacdEvent → Option Crossover
  | .crossover _ d => some d
  | _ => none

namespace Macd

def machine (fast slow signal : Nat) : Machine Macd ℚ MacdEvent where
  start := new fast slow signal
  step := onClose

/-- What the indicator remembers of a line after `n` closes: its last value once it is live. -/
def remembered (slow signal : Nat) (line : Nat → ℚ) (n : Nat) : Option ℚ :=
  if slow + signal ≤ n + 1 then some (line n) else none

/-- The indicator after `n` closes. -/
def after (fast slow signal : Nat) (x : Nat → ℚ) (n : Nat) : Macd where
  fast := Ema.after fast x n
  slow := Ema.after slow x n
  signal := Ema.after signal (fun j => macdLine fast slow x (slow + j)) (n + 1 - slow)
  prevMacd := remembered slow signal (macdLine fast slow x) n
  prevSignal := remembered slow signal (signalLine fast slow signal x) n

/-- What a live close reports. -/
def report (macd signal : ℚ) : Option Crossover → MacdEvent
  | some direction => .crossover ⟨macd, signal, macd - signal⟩ direction
  | none => .noCross ⟨macd, signal, macd - signal⟩

def event (fast slow signal : Nat) (x : Nat → ℚ) (n : Nat) : MacdEvent :=
  if slow + signal ≤ n + 1 then
    report (macdLine fast slow x n) (signalLine fast slow signal x n)
      (if slow + signal ≤ n then
        crossDirection (some (macdLine fast slow x (n - 1), signalLine fast slow signal x (n - 1)))
          (macdLine fast slow x n) (signalLine fast slow signal x n)
      else none)
  else .warmup

private theorem signal_update {fast slow n : Nat} (signal : Nat) (x : Nat → ℚ)
    (live : slow ≤ n + 1) :
    (Ema.after signal (fun j => macdLine fast slow x (slow + j)) (n + 1 - slow)).update
        (macdLine fast slow x (n + 1)) =
      (Ema.after signal (fun j => macdLine fast slow x (slow + j)) (n + 1 + 1 - slow),
        if slow + signal ≤ n + 1 + 1 then some (signalLine fast slow signal x (n + 1))
        else none) := by
  have fed : macdLine fast slow x (n + 1) =
      (fun j => macdLine fast slow x (slow + j)) (n + 1 - slow) := by
    dsimp only
    rw [Nat.add_sub_cancel' live]
  have next : n + 1 - slow + 1 = n + 1 + 1 - slow := by omega
  have reached : signal ≤ n + 1 + 1 - slow ↔ slow + signal ≤ n + 1 + 1 := by omega
  rw [fed, Ema.update_after, next]
  simp only [reached, signalLine]

private theorem remembered_pair (slow signal : Nat) (line other : Nat → ℚ) (n : Nat) :
    ((remembered slow signal line n).bind fun m =>
        (remembered slow signal other n).map fun s => (m, s)) =
      if slow + signal ≤ n + 1 then some (line n, other n) else none := by
  rw [remembered, remembered]
  split_ifs <;> rfl

theorem onClose_after {fast slow signal : Nat} (fast_lt : fast < slow) (signal_pos : 1 ≤ signal)
    (x : Nat → ℚ) (n : Nat) :
    (after fast slow signal x n).onClose (x n) =
      (after fast slow signal x (n + 1), event fast slow signal x (n + 1)) := by
  rw [onClose]
  dsimp only [after]
  rw [Ema.update_after, Ema.update_after, remembered_pair]
  by_cases live : slow ≤ n + 1
  · have fast_live : fast ≤ n + 1 := by omega
    rw [if_pos live, if_pos fast_live]
    dsimp only
    rw [← macdLine, signal_update signal x live]
    by_cases full : slow + signal ≤ n + 1 + 1
    · have kept (line : Nat → ℚ) : remembered slow signal line (n + 1) = some (line (n + 1)) :=
        if_pos full
      rw [if_pos full, kept, kept, event, if_pos full, Nat.add_sub_cancel]
      dsimp only
      by_cases again : slow + signal ≤ n + 1
      · rw [if_pos again, if_pos again]
        cases crossDirection (some (macdLine fast slow x n, signalLine fast slow signal x n))
          (macdLine fast slow x (n + 1)) (signalLine fast slow signal x (n + 1)) <;> rfl
      · rw [if_neg again, if_neg again]
        rfl
    · have before : ¬ slow + signal ≤ n + 1 := by omega
      have blank (line : Nat → ℚ) : remembered slow signal line n = none := if_neg before
      have still (line : Nat → ℚ) : remembered slow signal line (n + 1) = none := if_neg full
      rw [if_neg full, blank, blank, still, still, event, if_neg full]
  · have unfed : n + 1 + 1 - slow = n + 1 - slow := by omega
    have full : ¬ slow + signal ≤ n + 1 + 1 := by omega
    have before : ¬ slow + signal ≤ n + 1 := by omega
    have blank (line : Nat → ℚ) : remembered slow signal line n = none := if_neg before
    have still (line : Nat → ℚ) : remembered slow signal line (n + 1) = none := if_neg full
    rw [if_neg live, blank, blank, still, still, event, if_neg full, unfed]
    -- the slow average is not live, whether or not the fast one is
    split_ifs <;> rfl

theorem state_eq {fast slow signal : Nat} (fast_pos : 1 ≤ fast) (fast_lt : fast < slow)
    (signal_pos : 1 ≤ signal) (x : Nat → ℚ) (n : Nat) :
    (machine fast slow signal).state x n = after fast slow signal x n := by
  induction n with
  | zero =>
    have blank (line : Nat → ℚ) : remembered slow signal line 0 = none := if_neg (by omega)
    have unfed : 0 + 1 - slow = 0 := by omega
    have unseeded {period : Nat} (y : Nat → ℚ) (pos : 1 ≤ period) :
        Ema.after period y 0 = Ema.new period := (Ema.state_eq pos y 0).symm
    rw [after, blank, blank, unfed, unseeded x fast_pos, unseeded x (by omega),
      unseeded _ signal_pos]
    rfl
  | succ n ih =>
    have stepped : (machine fast slow signal).state x (n + 1) =
        (((machine fast slow signal).state x n).onClose (x n)).1 := rfl
    rw [stepped, ih, onClose_after fast_lt signal_pos]

theorem answer_eq {fast slow signal : Nat} (fast_pos : 1 ≤ fast) (fast_lt : fast < slow)
    (signal_pos : 1 ≤ signal) (x : Nat → ℚ) (n : Nat) :
    (machine fast slow signal).answer x n = event fast slow signal x (n + 1) := by
  have answered : (machine fast slow signal).answer x n =
      (((machine fast slow signal).state x n).onClose (x n)).2 := rfl
  rw [answered, state_eq fast_pos fast_lt signal_pos, onClose_after fast_lt signal_pos]

/-- The indicator is the textbook MACD: close number `n + 1` is a warm-up exactly up to number
`slow + signal - 2`, from then on its snapshot holds the two lines, and the first close that can
report a crossover is number `slow + signal`. -/
theorem onClose_is_textbook {fast slow signal : Nat} (fast_pos : 1 ≤ fast) (fast_lt : fast < slow)
    (signal_pos : 1 ≤ signal) (x : Nat → ℚ) (n : Nat) :
    ((machine fast slow signal).answer x n = .warmup ↔ n + 1 ≤ slow + signal - 2) ∧
    (slow + signal - 1 ≤ n + 1 → ((machine fast slow signal).answer x n).snapshot =
      some ⟨macdLine fast slow x (n + 1), signalLine fast slow signal x (n + 1),
        macdLine fast slow x (n + 1) - signalLine fast slow signal x (n + 1)⟩) ∧
    (((machine fast slow signal).answer x n).direction.isSome → slow + signal ≤ n + 1) := by
  rw [answer_eq fast_pos fast_lt signal_pos]
  by_cases live : slow + signal ≤ n + 1 + 1
  · obtain ⟨crossing, reported, early⟩ : ∃ crossing, event fast slow signal x (n + 1) =
        report (macdLine fast slow x (n + 1)) (signalLine fast slow signal x (n + 1)) crossing ∧
          (crossing.isSome → slow + signal ≤ n + 1) := by
      refine ⟨_, if_pos live, ?_⟩
      intro crossed
      by_contra first
      rw [if_neg first] at crossed
      cases crossed
    rw [reported]
    refine ⟨?_, ?_, ?_⟩
    · have after_warmup : ¬ n + 1 ≤ slow + signal - 2 := by omega
      refine iff_of_false ?_ after_warmup
      intro warming
      cases crossing with
      | none => cases warming
      | some direction => cases warming
    · intro _
      cases crossing <;> rfl
    · intro crossed
      cases crossing with
      | none => cases crossed
      | some direction => exact early rfl
  · have warming : event fast slow signal x (n + 1) = .warmup := if_neg live
    rw [warming]
    refine ⟨iff_of_true rfl (by omega), fun reached => absurd reached (by omega), ?_⟩
    intro crossed
    cases crossed

theorem onClose_is_textbook_usual :
    ((machine 12 26 9).answer (fun n => n) 34 = .warmup ↔ 34 + 1 ≤ 26 + 9 - 2) ∧
    (26 + 9 - 1 ≤ 34 + 1 → ((machine 12 26 9).answer (fun n => n) 34).snapshot =
      some ⟨macdLine 12 26 (fun n => n) (34 + 1), signalLine 12 26 9 (fun n => n) (34 + 1),
        macdLine 12 26 (fun n => n) (34 + 1) - signalLine 12 26 9 (fun n => n) (34 + 1)⟩) ∧
    (((machine 12 26 9).answer (fun n => n) 34).direction.isSome → 26 + 9 ≤ 34 + 1) :=
  onClose_is_textbook (by decide) (by decide) (by decide) (fun n => n) 34

end Macd

end HadesPsTrader.Market
