/- Module: HadesPsTrader/Market/Macd
   source: src/macd.rs
   digest: Candle aggregation and the MACD crossover indicator. -/

import HadesPsTrader.Market.Config

set_option autoImplicit false
set_option relaxedAutoImplicit false

namespace HadesPsTrader.Market

/-- Fixed-interval candle closes from streamed ticks. -/
structure CandleAggregator where
  interval : Duration
  barStart : Option Instant := none
  last : ℚ := 0
  deriving DecidableEq

/-- Feed a tick; a close is emitted when the tick falls past the current bar. The bar count is
narrowed to `u32` as in the source. -/
def CandleAggregator.onTick (a : CandleAggregator) (price : ℚ) (now : Instant) :
    CandleAggregator × Option ℚ :=
  match a.barStart with
  | none => ({ a with barStart := some now, last := price }, none)
  | some start =>
      let elapsed := durationSince now start
      if elapsed < a.interval then ({ a with last := price }, none)
      else
        let intervalsPassed := elapsed / a.interval % 2 ^ 32
        let advance := a.interval * intervalsPassed
        ({ a with barStart := some (start + advance), last := price }, some a.last)

/-- Exponential moving average, seeded with the mean of the first `period` inputs. -/
structure Ema where
  period : Nat
  k : ℚ
  value : Option ℚ := none
  warmupSum : ℚ := 0
  warmupCount : Nat := 0
  deriving DecidableEq

def Ema.new (period : Nat) : Ema where
  period := period
  k := 2 / (period + 1)

def Ema.update (e : Ema) (x : ℚ) : Ema × Option ℚ :=
  match e.value with
  | some prev =>
      let next := x * e.k + prev * (1 - e.k)
      ({ e with value := some next }, some next)
  | none =>
      let sum := e.warmupSum + x
      let count := e.warmupCount + 1
      if e.period ≤ count then
        ({ e with warmupSum := sum, warmupCount := count, value := some (sum / count) },
          some (sum / count))
      else ({ e with warmupSum := sum, warmupCount := count }, none)

structure MacdSnapshot where
  macd : ℚ
  signal : ℚ
  histogram : ℚ
  deriving DecidableEq

inductive Crossover
  | bullish | bearish
  deriving DecidableEq

inductive MacdEvent
  | warmup
  | noCross (snapshot : MacdSnapshot)
  | crossover (snapshot : MacdSnapshot) (direction : Crossover)
  deriving DecidableEq

structure Macd where
  fast : Ema
  slow : Ema
  signal : Ema
  prevMacd : Option ℚ := none
  prevSignal : Option ℚ := none
  deriving DecidableEq

def Macd.new (fast slow signal : Nat) : Macd where
  fast := Ema.new fast
  slow := Ema.new slow
  signal := Ema.new signal

/-- The direction in which the MACD line left the previous close's side of the signal line. -/
def crossDirection (prev : Option (ℚ × ℚ)) (macd signal : ℚ) : Option Crossover :=
  match prev with
  | none => none
  | some (prevMacd, prevSignal) =>
      if prevMacd ≤ prevSignal ∧ signal < macd then some .bullish
      else if prevSignal ≤ prevMacd ∧ macd < signal then some .bearish
      else none

/-- Feed one candle close. -/
def Macd.onClose (m : Macd) (close : ℚ) : Macd × MacdEvent :=
  let (fast, f) := m.fast.update close
  let (slow, s) := m.slow.update close
  match f, s with
  | some fastValue, some slowValue =>
      let macd := fastValue - slowValue
      let (signal, live) := m.signal.update macd
      match live with
      | none => ({ m with fast := fast, slow := slow, signal := signal }, .warmup)
      | some signalValue =>
          let snapshot : MacdSnapshot := ⟨macd, signalValue, macd - signalValue⟩
          let prev := m.prevMacd.bind fun pm => m.prevSignal.map fun ps => (pm, ps)
          let m' : Macd := ⟨fast, slow, signal, some macd, some signalValue⟩
          match crossDirection prev macd signalValue with
          | some direction => (m', .crossover snapshot direction)
          | none => (m', .noCross snapshot)
  | _, _ => ({ m with fast := fast, slow := slow }, .warmup)

end HadesPsTrader.Market
