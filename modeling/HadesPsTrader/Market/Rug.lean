/- Module: HadesPsTrader/Market/Rug
   source: src/rug.rs
   digest: The per-session rug guard over price and pool liquidity. -/

import HadesPsTrader.Market.Config

set_option autoImplicit false
set_option relaxedAutoImplicit false

namespace HadesPsTrader.Market

/-- Price and liquidity peaks of one session. -/
structure RugGuard where
  samples : Nat := 0
  peakPrice : ℚ := 0
  peakPoolSol : ℚ := 0
  deriving DecidableEq

/-- Why a token looks rugged, with the figures its message prints. -/
inductive RugReason
  | belowFloor (poolSol floor : ℚ)
  | liquidityDrop (dropPct peakPoolSol limit : ℚ)
  | drawdown (drawdownPct peakPrice limit : ℚ)
  deriving DecidableEq

namespace RugGuard

/-- Record one price tick; the sample counter is a saturating `u32`. -/
def observe (g : RugGuard) (priceSol poolSol : ℚ) : RugGuard where
  samples := min (g.samples + 1) (2 ^ 32 - 1)
  peakPrice := if g.peakPrice < priceSol then priceSol else g.peakPrice
  peakPoolSol := if g.peakPoolSol < poolSol then poolSol else g.peakPoolSol

/-- Liquidity floor first, then the drain from the session peak, then the price drawdown. -/
def isRugged (g : RugGuard) (f : RugFilter) (priceSol poolSol : ℚ) : Option RugReason :=
  let dropPct := (1 - poolSol / g.peakPoolSol) * 100
  let drawdownPct := (1 - priceSol / g.peakPrice) * 100
  if !f.enabled || g.samples < f.minSamples then none
  else if 0 < f.minPoolSol ∧ poolSol < f.minPoolSol then
    some (.belowFloor poolSol f.minPoolSol)
  else if 0 < f.maxLiquidityDropPct ∧ 0 < g.peakPoolSol ∧ f.maxLiquidityDropPct < dropPct then
    some (.liquidityDrop dropPct g.peakPoolSol f.maxLiquidityDropPct)
  else if 0 < f.maxDrawdownPct ∧ 0 < g.peakPrice ∧ f.maxDrawdownPct < drawdownPct then
    some (.drawdown drawdownPct g.peakPrice f.maxDrawdownPct)
  else none

end RugGuard

end HadesPsTrader.Market
