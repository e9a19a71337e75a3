/- Module: HadesPsTrader/Market/Candles
   source: src/macd.rs
   digest: The incremental candle aggregation is the grouping of the ticks by their interval. -/

import HadesPsTrader.Interaction.Grouping
import HadesPsTrader.Interaction.Machine
import HadesPsTrader.Market.Macd
import HadesPsTrader.Market.TickWindow

set_option autoImplicit false
set_option relaxedAutoImplicit false

open HadesPsTrader.Interaction

namespace HadesPsTrader.Market

def CandleAggregator.machine (interval : Duration) :
    Machine CandleAggregator (Instant × ℚ) (Option ℚ) where
  start := { interval := interval }
  step a t := a.onTick t.2 t.1

theorem CandleAggregator.onTick_bar {interval : Duration} {start now : Instant} (last price : ℚ)
    (near : now - start < interval * 2 ^ 32) :
    (⟨interval, some start, last⟩ : CandleAggregator).onTick price now =
      (⟨interval, some (start + interval * ((now - start) / interval)), price⟩,
        if now - start < interval then none else some last) := by
  rw [onTick]
  dsimp only [durationSince]
  by_cases within_bar : now - start < interval
  · have whole : (now - start) / interval = 0 := Nat.div_eq_of_lt within_bar
    rw [if_pos within_bar, if_pos within_bar, whole, Nat.mul_zero, Nat.add_zero]
  · have small : (now - start) / interval < 2 ^ 32 := Nat.div_lt_of_lt_mul near
    rw [if_neg within_bar, if_neg within_bar, Nat.mod_eq_of_lt small]

namespace Feed

variable (f : Feed ℚ) (interval : Duration)

/-- The bar of tick `n`: the number of whole intervals since the first tick. -/
def bar (n : Nat) : Nat := (f.time n - f.time 0) / interval

def candles (n : Nat) : CandleAggregator := (CandleAggregator.machine interval).state f.tick n

def close (n : Nat) : Option ℚ := (CandleAggregator.machine interval).answer f.tick n

theorem bar_zero : f.bar interval 0 = 0 := by
  rw [bar, Nat.sub_self, Nat.zero_div]

theorem bar_mono : Monotone (f.bar interval) := by
  intro i j le
  exact Nat.div_le_div_right (Nat.sub_le_sub_right (f.time_mono le) _)

theorem bar_bounds {interval : Duration} (pos : 0 < interval) (n : Nat) :
    f.time 0 + f.bar interval n * interval ≤ f.time n ∧
      f.time n - (f.time 0 + f.bar interval n * interval) < interval := by
  have first : f.time 0 ≤ f.time n := f.time_mono n.zero_le
  have floor : f.bar interval n * interval ≤ f.time n - f.time 0 := Nat.div_mul_le_self _ _
  have ceil : f.time n - f.time 0 - f.bar interval n * interval < interval := by
    have mod := Nat.mod_lt (f.time n - f.time 0) pos
    rwa [Nat.mod_eq_sub_div_mul] at mod
  constructor
  · rw [← Nat.add_sub_cancel' first]
    exact Nat.add_le_add_left floor _
  · rwa [← Nat.sub_sub]

theorem bar_succ {interval : Duration} (pos : 0 < interval) (n : Nat) :
    f.bar interval (n + 1) = f.bar interval n +
      (f.time (n + 1) - (f.time 0 + f.bar interval n * interval)) / interval := by
  obtain ⟨floor, -⟩ := f.bar_bounds pos n
  have le : f.bar interval n * interval ≤ f.time (n + 1) - f.time 0 :=
    (Nat.div_mul_le_self _ _).trans (Nat.sub_le_sub_right (f.time_mono n.le_succ) _)
  rw [← Nat.sub_sub, Nat.add_comm (f.bar interval n), ← Nat.add_mul_div_right _ _ pos,
    Nat.sub_add_cancel le]
  rfl

variable {f interval}

theorem bar_near (pos : 0 < interval)
    (gaps : ∀ n, f.time (n + 1) - f.time n < 2 ^ 31 * interval) (n : Nat) :
    f.time (n + 1) - (f.time 0 + f.bar interval n * interval) < interval * 2 ^ 32 := by
  obtain ⟨-, young⟩ := f.bar_bounds pos n
  calc f.time (n + 1) - (f.time 0 + f.bar interval n * interval)
      ≤ (f.time (n + 1) - f.time n) +
          (f.time n - (f.time 0 + f.bar interval n * interval)) := tsub_le_tsub_add_tsub
    _ < 2 ^ 31 * interval + interval := Nat.add_lt_add (gaps n) young
    _ = (2 ^ 31 + 1) * interval := (Nat.succ_mul _ _).symm
    _ ≤ 2 ^ 32 * interval := Nat.mul_le_mul_right _ (by decide)
    _ = interval * 2 ^ 32 := Nat.mul_comm _ _

theorem candles_succ (pos : 0 < interval)
    (gaps : ∀ n, f.time (n + 1) - f.time n < 2 ^ 31 * interval) (n : Nat) :
    f.candles interval (n + 1) =
      ⟨interval, some (f.time 0 + f.bar interval n * interval), f.value n⟩ := by
  induction n with
  | zero =>
    rw [bar_zero, Nat.zero_mul, Nat.add_zero]
    rfl
  | succ n ih =>
    have stepped : f.candles interval (n + 1 + 1) =
        ((f.candles interval (n + 1)).onTick (f.value (n + 1)) (f.time (n + 1))).1 := rfl
    rw [stepped, ih, CandleAggregator.onTick_bar _ _ (bar_near pos gaps n), f.bar_succ pos n,
      Nat.add_mul, Nat.mul_comm interval, Nat.add_assoc]

theorem close_succ (pos : 0 < interval)
    (gaps : ∀ n, f.time (n + 1) - f.time n < 2 ^ 31 * interval) (n : Nat) :
    f.close interval (n + 1) =
      if f.bar interval n < f.bar interval (n + 1) then some (f.value n) else none := by
  have answered : f.close interval (n + 1) =
      ((f.candles interval (n + 1)).onTick (f.value (n + 1)) (f.time (n + 1))).2 := rfl
  rw [answered, candles_succ pos gaps, CandleAggregator.onTick_bar _ _ (bar_near pos gaps n),
    f.bar_succ pos n]
  dsimp only
  split_ifs with flat rise rise
  · rw [Nat.div_eq_of_lt flat] at rise
    exact absurd rise (Nat.lt_irrefl _)
  · rfl
  · rfl
  · have passed := Nat.div_pos (not_lt.mp flat) pos
    omega

/-- The incremental aggregation is the grouping by interval: a tick emits the price of the last
tick of the previous nonempty bar exactly when it is the first tick of its own, and the aggregator
stays on the boundaries counted from the first tick. -/
theorem candles_group_ticks (f : Feed ℚ) {interval : Duration} (pos : 0 < interval)
    (gaps : ∀ n, f.time (n + 1) - f.time n < 2 ^ 31 * interval) (n : Nat) :
    (∀ price, f.close interval n = some price ↔
      ∃ m, Closes (f.bar interval) m n ∧ f.value m = price) ∧
    ∃ k start, (f.candles interval (n + 1)).barStart = some start ∧
      start = f.time 0 + k * interval ∧ start ≤ f.time n ∧ f.time n - start < interval := by
  refine ⟨?_, f.bar interval n, _, ?_, rfl, f.bar_bounds pos n⟩
  · intro price
    cases n with
    | zero =>
      constructor
      · intro emitted
        cases emitted
      · rintro ⟨m, closes, -⟩
        rw [Closes.iff_rise (f.bar_mono interval)] at closes
        cases closes.1
    | succ n =>
      rw [close_succ pos gaps]
      constructor
      · intro emitted
        split_ifs at emitted with rise
        exact ⟨n, (Closes.iff_rise (f.bar_mono interval)).mpr ⟨rfl, rise⟩, by cases emitted; rfl⟩
      · rintro ⟨m, closes, rfl⟩
        obtain ⟨next, rise⟩ := (Closes.iff_rise (f.bar_mono interval)).mp closes
        cases Nat.succ_injective next
        exact if_pos rise
  · rw [candles_succ pos gaps]

def steady : Feed ℚ where
  tick n := (fromSecs n, n)
  ordered _ _ le := Nat.mul_le_mul_right _ le

theorem candles_group_steady_ticks :
    (∀ price, steady.close (fromSecs 5) 10 = some price ↔
      ∃ m, Closes (steady.bar (fromSecs 5)) m 10 ∧ steady.value m = price) ∧
    ∃ k start, (steady.candles (fromSecs 5) 11).barStart = some start ∧
      start = steady.time 0 + k * fromSecs 5 ∧ start ≤ steady.time 10 ∧
      steady.time 10 - start < fromSecs 5 := by
  have gaps (n : Nat) : steady.time (n + 1) - steady.time n < 2 ^ 31 * fromSecs 5 := by
    have second : steady.time (n + 1) - steady.time n = fromSecs 1 := by
      rw [time, time, steady]
      dsimp only
      rw [fromSecs, fromSecs, Nat.succ_mul, Nat.add_sub_cancel_left]
      rfl
    rw [second]
    decide
  exact candles_group_ticks steady (by decide) gaps 10

end Feed

end HadesPsTrader.Market
