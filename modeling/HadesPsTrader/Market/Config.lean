/- Module: HadesPsTrader/Market/Config
   source: src/config.rs
   digest: Clock readings, durations and the typed configuration with its defaults. -/

import Mathlib.Algebra.Order.Field.Rat
import Mathlib.Tactic.Common

set_option autoImplicit false
set_option relaxedAutoImplicit false

namespace HadesPsTrader.Market

/-- A monotonic clock reading, in nanoseconds. -/
abbrev Instant := Nat

/-- A span of time, in nanoseconds. -/
abbrev Duration := Nat

def fromSecs (n : Nat) : Duration := n * 1000000000

def fromMillis (n : Nat) : Duration := n * 1000000

/-- `Duration::as_secs`: whole seconds, rounded down. -/
def asSecs (d : Duration) : Nat := d / 1000000000

/-- `Instant::duration_since`, which saturates at zero. -/
def durationSince (now earlier : Instant) : Duration := now - earlier

theorem le_asSecs_iff (n : Nat) (d : Duration) : n ≤ asSecs d ↔ fromSecs n ≤ d := by
  rw [asSecs, fromSecs, Nat.le_div_iff_mul_le (by decide)]

structure JitoConfig where
  enabled : Bool := false
  tipSol : ℚ := 3 / 10000
  blockEngineUrl : String := "https://mainnet.block-engine.jito.wtf/api/v1/bundles"
  deriving DecidableEq

structure CopyTradeConfig where
  enabled : Bool := false
  tradeAmountSol : ℚ := 1 / 10
  maxPositions : Nat := 5
  dailySpendCapSol : ℚ := 2
  reentryCooldownSecs : Nat := 300
  perWalletCooldownSecs : Nat := 60
  minPoolSol : ℚ := 30
  maxHoldSecs : Nat := 900
  stopLossPct : ℚ := 20
  trailTiers : String := "20:6,40:10,75:15,100:20,150:25,200:30"
  takeProfitPct : ℚ := 300
  mirrorExit : Bool := true
  mirrorExitOnFirstSell : Bool := true
  mirrorCloseFraction : ℚ := 1 / 10
  mirrorMaxHoldSecs : Nat := 7200
  deriving DecidableEq

/-- `[trading]`; the section has no defaults. -/
structure Trading where
  slippage : ℚ
  tradeAmount : Nat
  priorityFeeSol : ℚ
  profitTargetPercent : ℚ
  stopLossPercent : ℚ
  maxPositions : Nat
  buyTxRetries : Nat
  sellTxRetries : Nat
  maxMonitorTime : Nat
  maxHoldTime : Nat
  dynamicTrailingStopThresholds : String
  deriving DecidableEq

/-- `[macd]`; the section has no defaults. -/
structure MacdConfig where
  candleIntervalSecs : Nat
  fast : Nat
  slow : Nat
  signal : Nat
  cooldownSecs : Nat
  deriving DecidableEq

structure RugFilter where
  enabled : Bool := true
  minPoolSol : ℚ := 5
  maxLiquidityDropPct : ℚ := 50
  maxDrawdownPct : ℚ := 70
  minSamples : Nat := 20
  deriving DecidableEq

structure CapitulationConfig where
  enabled : Bool := false
  dipPct : ℚ := 50
  windowSecs : Nat := 60
  reclaimPct : ℚ := 10
  pendingExpireSecs : Nat := 30
  reclaimConfirmSecs : Nat := 10
  debounceSecs : Nat := 60
  deriving DecidableEq

structure DipBuyConfig where
  enabled : Bool := false
  windowSecs : Nat := 60
  minDrawdownPct : ℚ := 3 / 10
  maxEntryQuantile : ℚ := 2 / 10
  minPoolSolDrawdownPct : ℚ := 2 / 10
  maxPoolSolDrawdownPct : ℚ := 45 / 100
  minPoolSol : ℚ := 30
  cooldownSecs : Nat := 60
  dailySpendCapSol : ℚ := 2
  poolRecoverySecs : Nat := 8
  poolRecoveryPct : ℚ := 3 / 100
  priceRecoverySecs : Nat := 5
  priceRecoveryPct : ℚ := 5 / 100
  maxSessionAgeSecs : Nat := 600
  deriving DecidableEq

structure DipBuyExitConfig where
  takeProfitPct : ℚ := 300
  stopLossPct : ℚ := 25
  maxHoldSecs : Nat := 600
  trailTiers : String := "20:6,40:10,75:15,100:20,150:25,200:30"
  deriving DecidableEq

/-- `config.toml`, less the wallet path and the one-shot trading filters' thresholds. -/
structure Config where
  trading : Trading
  macd : MacdConfig
  filtersEnabled : Bool := false
  rug : RugFilter := {}
  capitulation : CapitulationConfig := {}
  dipBuy : DipBuyConfig := {}
  dipBuyExit : DipBuyExitConfig := {}
  copyTrade : CopyTradeConfig := {}
  jito : JitoConfig := {}
  deriving DecidableEq

/-- `trading.trade_amount` lamports, in SOL. -/
def Config.amountSol (cfg : Config) : ℚ := cfg.trading.tradeAmount / 1000000000

end HadesPsTrader.Market
