/- Module: HadesPsTrader/Market/MacdWarmup
   source: src/macd.rs, src/session.rs, src/main.rs
   digest: How early the first crossover of a session can come. -/

import HadesPsTrader.Market.Candles
import HadesPsTrader.Market.MacdSeries
import HadesPsTrader.Market.StartupChecks

set_option autoImplicit false
set_option relaxedAutoImplicit false

open HadesPsTrader.Interaction

namespace HadesPsTrader.Market

namespace Ema

theorem update_period (e : Ema) (x : ℚ) : (e.update x).1.period = e.period := by
  unfold update
  split
  · rfl
  · dsimp only
    split_ifs <;> rfl

/-- An average of at most `n` inputs, counted while it is seeded. -/
structure FedAtMost (e : Ema) (n : Nat) : Prop where
  counted : e.warmupCount ≤ n
  live : e.value.isSome → e.period ≤ n

theorem FedAtMost.update {e : Ema} {n : Nat} (fed : e.FedAtMost n) (x : ℚ) :
    (e.update x).1.FedAtMost (n + 1) ∧ ((e.update x).2.isSome → e.period ≤ n + 1) := by
  obtain ⟨counted, live⟩ := fed
  unfold Ema.update
  split
  · next prev here =>
    have reached : e.period ≤ n := live (by rw [here]; rfl)
    exact ⟨⟨counted.trans n.le_succ, fun _ => reached.trans n.le_succ⟩,
      fun _ => reached.trans n.le_succ⟩
  · next blank =>
    dsimp only
    split_ifs with seeded
    · have reached : e.period ≤ n + 1 := seeded.trans (Nat.succ_le_succ counted)
      exact ⟨⟨Nat.succ_le_succ counted, fun _ => reached⟩, fun _ => reached⟩
    · refine ⟨⟨Nat.succ_le_succ counted, ?_⟩, nofun⟩
      intro some_value
      rw [blank] at some_value
      cases some_value

theorem FedAtMost.mono {e : Ema} {m n : Nat} (fed : e.FedAtMost m) (le : m ≤ n) : e.FedAtMost n :=
  ⟨fed.counted.trans le, fun some_value => (fed.live some_value).trans le⟩

theorem fedAtMost_new (period : Nat) : (new period).FedAtMost 0 := ⟨le_rfl, nofun⟩

end Ema

namespace Macd

/-- An indicator fed at most `n` closes. The signal average starts at close number `slow`. -/
structure FedAtMost (slow signal : Nat) (m : Macd) (n : Nat) : Prop where
  slow_period : m.slow.period = slow
  signal_period : m.signal.period = signal
  slow_fed : m.slow.FedAtMost n
  signal_fed : m.signal.FedAtMost (n + 1 - slow)
  remembered : m.prevMacd.isSome → slow + signal ≤ n + 1

theorem fedAtMost_new (fast slow signal : Nat) : (new fast slow signal).FedAtMost slow signal 0 :=
  ⟨rfl, rfl, Ema.fedAtMost_new slow, (Ema.fedAtMost_new signal).mono (Nat.zero_le _), nofun⟩

theorem direction_onClose (m : Macd) (close : ℚ) :
    (m.onClose close).2.direction.isSome → m.prevMacd.isSome := by
  rw [onClose]
  dsimp only
  split
  · split
    · intro crossed
      cases crossed
    · cases m.prevMacd with
      | none =>
        intro crossed
        cases crossed
      | some prev => exact fun _ => rfl
  · intro crossed
    cases crossed

theorem FedAtMost.onClose {slow signal : Nat} {m : Macd} {n : Nat}
    (fed : m.FedAtMost slow signal n) (close : ℚ) :
    (m.onClose close).1.FedAtMost slow signal (n + 1) := by
  obtain ⟨slow_fed, slow_live⟩ := fed.slow_fed.update close
  have slow_period := (m.slow.update_period close).trans fed.slow_period
  have waits : m.signal.FedAtMost (n + 1 + 1 - slow) := fed.signal_fed.mono (by omega)
  have before (some_prev : m.prevMacd.isSome) : slow + signal ≤ n + 1 + 1 :=
    (fed.remembered some_prev).trans (Nat.le_succ _)
  rw [Macd.onClose]
  dsimp only
  split
  · next fastValue slowValue fast_some slow_some =>
    have reached : slow ≤ n + 1 := by
      rw [← fed.slow_period]
      exact slow_live (by rw [slow_some]; rfl)
    obtain ⟨signal_fed, signal_live⟩ := fed.signal_fed.update (fastValue - slowValue)
    have signal_period :=
      (m.signal.update_period (fastValue - slowValue)).trans fed.signal_period
    have next : n + 1 - slow + 1 = n + 1 + 1 - slow := by omega
    rw [next] at signal_fed signal_live
    split
    · exact ⟨slow_period, signal_period, slow_fed, signal_fed, before⟩
    · next signalValue signal_some =>
      have full : slow + signal ≤ n + 1 + 1 := by
        have enough := signal_live (by rw [signal_some]; rfl)
        rw [fed.signal_period] at enough
        omega
      split
      · exact ⟨slow_period, signal_period, slow_fed, signal_fed, fun _ => full⟩
      · exact ⟨slow_period, signal_period, slow_fed, signal_fed, fun _ => full⟩
  · exact ⟨slow_period, fed.signal_period, slow_fed, waits, before⟩

end Macd

structure Chart where
  aggregator : CandleAggregator
  macd : Macd

namespace Chart

def new (cfg : MacdConfig) : Chart where
  aggregator := { interval := fromSecs cfg.candleIntervalSecs }
  macd := .new cfg.fast cfg.slow cfg.signal

/-- A price tick goes to the aggregator, and a close on to the MACD. -/
def onTick (c : Chart) (price : ℚ) (now : Instant) : Chart × Option MacdEvent :=
  match c.aggregator.onTick price now with
  | (aggregator, none) => (⟨aggregator, c.macd⟩, none)
  | (aggregator, some close) =>
      (⟨aggregator, (c.macd.onClose close).1⟩, some (c.macd.onClose close).2)

/-- The direction of the crossover that a tick reports. -/
def crossing (event : Option MacdEvent) : Option Crossover := event.bind MacdEvent.direction

/-- Since `start`, no more closes than whole intervals; the last tick was read at `seen`. -/
structure Paced (cfg : MacdConfig) (start seen : Instant) (c : Chart) (closes : Nat) : Prop where
  interval : c.aggregator.interval = fromSecs cfg.candleIntervalSecs
  fed : c.macd.FedAtMost cfg.slow cfg.signal closes
  fresh : c.aggregator.barStart = none → closes = 0
  bars : ∀ b ∈ c.aggregator.barStart,
    start + closes * fromSecs cfg.candleIntervalSecs ≤ b ∧ b ≤ seen

theorem paced_new (cfg : MacdConfig) (start seen : Instant) : (new cfg).Paced cfg start seen 0 :=
  ⟨rfl, Macd.fedAtMost_new _ _ _, fun _ => rfl, nofun⟩

section Tick

variable {cfg : MacdConfig} {start seen now : Instant} {c : Chart} {closes : Nat}

theorem Paced.onTick (paced : c.Paced cfg start seen closes) (price : ℚ) (started : start ≤ now)
    (later : seen ≤ now) (pos : 0 < fromSecs cfg.candleIntervalSecs)
    (near : now - start < fromSecs cfg.candleIntervalSecs * 2 ^ 32) :
    (∃ closes', (c.onTick price now).1.Paced cfg start now closes') ∧
      ((crossing (c.onTick price now).2).isSome →
        start + (cfg.slow + cfg.signal) * fromSecs cfg.candleIntervalSecs ≤ now) := by
  obtain ⟨interval, fed, fresh, bars⟩ := paced
  obtain ⟨⟨width, barStart, last⟩, macd⟩ := c
  dsimp only at interval fed fresh bars
  rw [← interval] at pos near bars ⊢
  cases barStart with
  | none =>
    have blank : closes = 0 := fresh rfl
    have opened : onTick ⟨⟨width, none, last⟩, macd⟩ price now =
        (⟨⟨width, some now, price⟩, macd⟩, none) := rfl
    rw [opened]
    refine ⟨⟨0, interval, blank ▸ fed, fun _ => rfl, ?_⟩, nofun⟩
    rintro b ⟨⟩
    rw [Nat.zero_mul, Nat.add_zero]
    exact ⟨started, le_rfl⟩
  | some b =>
    obtain ⟨bar_late, bar_seen⟩ := bars b rfl
    have bar_past : b ≤ now := bar_seen.trans later
    have bar_started : start ≤ b := (Nat.le_add_right _ _).trans bar_late
    have bar_near : now - b < width * 2 ^ 32 :=
      (Nat.sub_le_sub_left bar_started now).trans_lt near
    have floor : width * ((now - b) / width) ≤ now - b := Nat.mul_div_le _ _
    have aligned : b + width * ((now - b) / width) ≤ now :=
      (Nat.add_le_add_left floor b).trans_eq (Nat.add_sub_cancel' bar_past)
    have ticked := CandleAggregator.onTick_bar last price bar_near
    rw [onTick, ticked]
    by_cases within_bar : now - b < width
    · rw [if_pos within_bar]
      refine ⟨⟨closes, interval, fed, nofun, ?_⟩, nofun⟩
      rintro b' ⟨⟩
      rw [← interval]
      exact ⟨bar_late.trans (Nat.le_add_right _ _), aligned⟩
    · rw [if_neg within_bar]
      have passed : 1 ≤ (now - b) / width := Nat.div_pos (not_lt.mp within_bar) pos
      have one_bar : width ≤ width * ((now - b) / width) := Nat.le_mul_of_pos_right _ passed
      have next_late : start + (closes + 1) * width ≤ b + width * ((now - b) / width) := by
        rw [Nat.succ_mul, ← Nat.add_assoc]
        exact Nat.add_le_add bar_late one_bar
      refine ⟨⟨closes + 1, interval, fed.onClose last, nofun, ?_⟩, ?_⟩
      · rintro b' ⟨⟩
        rw [← interval]
        exact ⟨next_late, aligned⟩
      · intro crossed
        have enough : cfg.slow + cfg.signal ≤ closes + 1 :=
          fed.remembered (macd.direction_onClose last crossed)
        calc start + (cfg.slow + cfg.signal) * width
            ≤ start + (closes + 1) * width :=
              Nat.add_le_add_left (Nat.mul_le_mul_right _ enough) _
          _ ≤ now := next_late.trans aligned

theorem Paced.mono (paced : c.Paced cfg start seen closes) (later : seen ≤ now) :
    c.Paced cfg start now closes :=
  ⟨paced.interval, paced.fed, paced.fresh, fun b here =>
    ⟨(paced.bars b here).1, (paced.bars b here).2.trans later⟩⟩

end Tick

section Warned

variable {cfg : Config} {start seen now : Instant} {c : Chart} {closes : Nat}

/-- Where the startup check warns, the bars before the deadline are too few for a crossover, and
for the narrowing of their count. -/
theorem bars_of_neverSignals (warned : cfg.macdNeverSignals) :
    0 < fromSecs cfg.macd.candleIntervalSecs ∧
      fromSecs cfg.trading.maxMonitorTime ≤
        (cfg.macd.slow + cfg.macd.signal) * fromSecs cfg.macd.candleIntervalSecs ∧
      fromSecs cfg.trading.maxMonitorTime ≤ fromSecs cfg.macd.candleIntervalSecs * 2 ^ 32 := by
  obtain ⟨some_time, enough⟩ := Config.maxMonitorTime_le_of_neverSignals warned
  have bars_le : cfg.warmupBars ≤ cfg.macd.slow + cfg.macd.signal := Nat.mod_le _ _
  have bars_lt : cfg.warmupBars ≤ 2 ^ 32 := (Nat.mod_lt _ (by decide)).le
  have spanned : fromSecs cfg.trading.maxMonitorTime ≤
      cfg.warmupBars * fromSecs cfg.macd.candleIntervalSecs :=
    (Nat.mul_le_mul_right _ enough).trans_eq (Nat.mul_assoc _ _ _)
  refine ⟨?_, spanned.trans (Nat.mul_le_mul_right _ bars_le), ?_⟩
  · by_contra none_left
    have zero : fromSecs cfg.macd.candleIntervalSecs = 0 := Nat.eq_zero_of_not_pos none_left
    rw [zero, Nat.mul_zero] at spanned
    have positive : 0 < fromSecs cfg.trading.maxMonitorTime := Nat.mul_pos some_time (by decide)
    exact absurd spanned (not_le.mpr positive)
  · rw [Nat.mul_comm]
    exact spanned.trans (Nat.mul_le_mul_right _ bars_lt)

theorem Paced.quiet (paced : c.Paced cfg.macd start seen closes) (warned : cfg.macdNeverSignals)
    (price : ℚ) (started : start ≤ now) (later : seen ≤ now)
    (early : now < start + fromSecs cfg.trading.maxMonitorTime) :
    (∃ closes', (c.onTick price now).1.Paced cfg.macd start now closes') ∧
      crossing (c.onTick price now).2 = none := by
  obtain ⟨pos, too_few, near⟩ := bars_of_neverSignals warned
  have elapsed : now - start < fromSecs cfg.trading.maxMonitorTime :=
    (Nat.sub_lt_iff_lt_add' started).mpr early
  obtain ⟨kept, crossed⟩ := paced.onTick price started later pos (elapsed.trans_le near)
  refine ⟨kept, ?_⟩
  cases reported : crossing (c.onTick price now).2 with
  | none => rfl
  | some direction =>
    have late := crossed (by rw [reported]; rfl)
    exact absurd early (not_lt.mpr ((Nat.add_le_add_left too_few start).trans late))

end Warned

def machine (cfg : MacdConfig) : Machine Chart (Instant × ℚ) (Option MacdEvent) where
  start := new cfg
  step c t := c.onTick t.2 t.1

theorem state_paced {cfg : Config} (warned : cfg.macdNeverSignals) (f : Feed ℚ) {start : Instant}
    (started : start ≤ f.time 0) (n : Nat)
    (early : f.time n < start + fromSecs cfg.trading.maxMonitorTime) :
    ∃ closes, ((machine cfg.macd).state f.tick n).Paced cfg.macd start (f.time n) closes := by
  induction n with
  | zero => exact ⟨0, paced_new _ _ _⟩
  | succ n ih =>
    have later : f.time n ≤ f.time (n + 1) := f.time_mono n.le_succ
    obtain ⟨closes, paced⟩ := ih (later.trans_lt early)
    have from_start : start ≤ f.time n := started.trans (f.time_mono n.zero_le)
    obtain ⟨⟨closes', kept⟩, -⟩ :=
      paced.quiet warned (f.value n) from_start le_rfl (later.trans_lt early)
    exact ⟨closes', kept.mono later⟩

theorem no_crossing_before_deadline {cfg : Config} (warned : cfg.macdNeverSignals) (f : Feed ℚ)
    {start : Instant} (started : start ≤ f.time 0) (n : Nat)
    (early : f.time n < start + fromSecs cfg.trading.maxMonitorTime) :
    crossing ((machine cfg.macd).answer f.tick n) = none := by
  obtain ⟨closes, paced⟩ := state_paced warned f started n early
  have from_start : start ≤ f.time n := started.trans (f.time_mono n.zero_le)
  exact (paced.quiet warned (f.value n) from_start le_rfl early).2

end Chart

end HadesPsTrader.Market
