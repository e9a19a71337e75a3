/- Module: HadesPsTrader/Market/Signals
   source: src/session.rs
   digest: The entry signal of a tick, from the ticks before it. -/

import HadesPsTrader.Market.CapitulationRuns
import HadesPsTrader.Market.DipBuyRuns
import HadesPsTrader.Market.MacdWarmup
import HadesPsTrader.Market.Position

set_option autoImplicit false
set_option relaxedAutoImplicit false

namespace HadesPsTrader.Market

open HadesPsTrader.Interaction

/-- A tick as the indicators of prices read it. -/
def priced (t : Instant × DipTick) : Instant × ℚ := (t.1, t.2.price)

section Signals

variable (cfg : Config) (sessionStart : Instant)

/-- The signal of a tick behind the ticks that were seen before it. The first entry mode that is
switched on decides alone: dip-buy, then capitulation, then the bullish crossovers of the MACD. -/
def entrySignal (seen : List (Instant × DipTick)) (t : Instant × DipTick) : Option EntryTrigger :=
  if cfg.dipBuy.enabled then
    ((DipBuyDetector.machine cfg.dipBuy sessionStart).respond seen t).map fun _ => .dipBuy
  else if cfg.capitulation.enabled then
    ((CapitulationDetector.machine cfg.capitulation).respond (seen.map priced) (priced t)).map
      fun _ => .capitulation
  else
    if Chart.crossing ((Chart.machine cfg.macd).respond (seen.map priced) (priced t)) =
        some .bullish then some .macd
    else none

variable {cfg sessionStart} {seen : List (Instant × DipTick)} {t : Instant × DipTick}

theorem entrySignal_dipBuy (on : cfg.dipBuy.enabled = true) :
    entrySignal cfg sessionStart seen t =
      ((DipBuyDetector.machine cfg.dipBuy sessionStart).respond seen t).map fun _ => .dipBuy := by
  rw [entrySignal, if_pos on]

theorem entrySignal_capitulation (off : cfg.dipBuy.enabled = false)
    (on : cfg.capitulation.enabled = true) : entrySignal cfg sessionStart seen t =
      ((CapitulationDetector.machine cfg.capitulation).respond (seen.map priced) (priced t)).map
        fun _ => .capitulation := by
  rw [entrySignal, off, if_neg Bool.false_ne_true, if_pos on]

theorem entrySignal_macd (off : cfg.dipBuy.enabled = false)
    (off' : cfg.capitulation.enabled = false) : entrySignal cfg sessionStart seen t =
      if Chart.crossing ((Chart.machine cfg.macd).respond (seen.map priced) (priced t)) =
        some .bullish then some .macd
      else none := by
  rw [entrySignal, off, off', if_neg Bool.false_ne_true, if_neg Bool.false_ne_true]

end Signals

end HadesPsTrader.Market
