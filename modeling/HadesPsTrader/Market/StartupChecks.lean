/- Module: HadesPsTrader/Market/StartupChecks
   source: src/main.rs
   digest: The configurations that `main` warns about when it starts. -/

import HadesPsTrader.Market.ExitRules

set_option autoImplicit false
set_option relaxedAutoImplicit false

namespace HadesPsTrader.Market

/-- The gain of the lowest tier; `none` is the infinity of a list without tiers. -/
def firstTierGain (s : String) : Option ℚ := (parseTiers s).head?.map TrailTier.gainPct

theorem firstTierGain_le {s : String} {tier : TrailTier} (listed : tier ∈ listedTiers s) :
    ∃ gain, firstTierGain s = some gain ∧ gain ≤ tier.gainPct := by
  have mem : tier ∈ parseTiers s := (List.mem_insertionSort _).mpr listed
  have sorted : (parseTiers s).Pairwise fun a b => a.gainPct ≤ b.gainPct :=
    List.pairwise_insertionSort _ _
  rw [firstTierGain]
  cases tiers : parseTiers s with
  | nil =>
      rw [tiers] at mem
      cases mem
  | cons first rest =>
      rw [tiers] at mem sorted
      refine ⟨first.gainPct, rfl, ?_⟩
      rcases List.mem_cons.mp mem with rfl | later
      · exact le_rfl
      · exact (List.pairwise_cons.mp sorted).1 tier later

namespace Config

variable (cfg : Config)

/-- The candles the MACD warms up on, summed in `u32`. -/
def warmupBars : Nat := (cfg.macd.slow + cfg.macd.signal) % 2 ^ 32

/-- Their duration, multiplied in `u64` with `saturating_mul`. -/
def warmupSecs : Nat := min (cfg.warmupBars * cfg.macd.candleIntervalSecs) (2 ^ 64 - 1)

/-- The startup log says that the MACD will never produce signals. -/
def macdNeverSignals : Bool :=
  0 < cfg.trading.maxMonitorTime && cfg.trading.maxMonitorTime ≤ cfg.warmupSecs

theorem maxMonitorTime_le_of_neverSignals {cfg : Config} (warned : cfg.macdNeverSignals) :
    0 < cfg.trading.maxMonitorTime ∧
      cfg.trading.maxMonitorTime ≤ cfg.warmupBars * cfg.macd.candleIntervalSecs := by
  rw [macdNeverSignals, Bool.and_eq_true, decide_eq_true_eq, decide_eq_true_eq] at warned
  exact ⟨warned.1, warned.2.trans (min_le_left _ _)⟩

/-- The startup log says that trailing stops will never engage. -/
def trailingNeverEngages : Bool :=
  0 < cfg.trading.profitTargetPercent &&
    (firstTierGain cfg.trading.dynamicTrailingStopThresholds).all fun gain =>
      cfg.trading.profitTargetPercent < gain

theorem profitTarget_lt_of_neverEngages {cfg : Config} (warned : cfg.trailingNeverEngages) :
    0 < cfg.trading.profitTargetPercent ∧
      ∀ gain, firstTierGain cfg.trading.dynamicTrailingStopThresholds = some gain →
        cfg.trading.profitTargetPercent < gain := by
  rw [trailingNeverEngages, Bool.and_eq_true, decide_eq_true_eq] at warned
  refine ⟨warned.1, ?_⟩
  intro gain first
  have below := warned.2
  rw [first] at below
  exact of_decide_eq_true below

end Config

/-- Where the startup check warns, a trailing exit follows a take-profit at or above the lowest tier
on an earlier tick. -/
theorem Holding.takeProfit_before_trail {cfg : Config} {h : Holding}
    {tierGain trail triggerAtPct currentPct : ℚ}
    (warned : cfg.trailingNeverEngages) (universal : h.trigger ≠ .dipBuy)
    (timed : h.ticks.Pairwise fun a b => a.2 ≤ b.2)
    (gives : h.Gives cfg (some (.dynamicTrail tierGain trail triggerAtPct currentPct))) :
    ∃ before x gain, before ++ [x] <+: h.ticks.dropLast ∧
      firstTierGain cfg.trading.dynamicTrailingStopThresholds = some gain ∧
      gain ≤ h.pnl x.1 ∧
      { h with ticks := before ++ [x] }.Gives cfg (some (.takeProfit (h.pnl x.1))) := by
  obtain ⟨positive, below⟩ := Config.profitTarget_lt_of_neverEngages warned
  obtain ⟨priceSol, now, last, given⟩ := gives
  obtain ⟨⟨tier, listed, reached⟩, held, unwon⟩ := given.of_trail universal
  obtain ⟨gain, first, least⟩ := firstTierGain_le listed
  have target : cfg.trading.profitTargetPercent < gain := below gain first
  have high : gain ≤ h.peak := least.trans reached
  have risen : 0 < h.peak := positive.trans (target.trans_le high)
  obtain ⟨x, mem, top⟩ := Holding.exists_peak risen
  rw [← top] at high risen
  have won : 0 < cfg.trading.profitTargetPercent ∧
      cfg.trading.profitTargetPercent ≤ h.pnl x.1 := ⟨positive, target.le.trans high⟩
  obtain ⟨ticks, concat⟩ := List.getLast?_eq_some_iff.mp last
  rw [concat] at mem timed
  have earlier : x ∈ ticks := by
    rcases List.mem_append.mp mem with old | new
    · exact old
    · -- at the last tick the take-profit does not hold
      cases List.mem_singleton.mp new
      exact absurd won unwon
  have older : x.2 ≤ now := (List.pairwise_append.mp timed).2.2 x earlier _ List.mem_cons_self
  obtain ⟨before, after, split⟩ := List.append_of_mem earlier
  refine ⟨before, x, gain, ?_, first, high, ?_⟩
  · rw [concat, List.dropLast_concat, split]
    exact ⟨after, by rw [List.append_assoc]; rfl⟩
  refine ⟨x.1, x.2, List.getLast?_concat, ?_⟩
  apply exitGiven_takeProfit universal
  · rintro ⟨capped, old⟩
    have aged : asSecs (durationSince x.2 h.boughtAt) ≤ asSecs (durationSince now h.boughtAt) :=
      Nat.div_le_div_right (Nat.sub_le_sub_right older _)
    exact held ⟨capped, old.trans aged⟩
  · rintro ⟨limited, lost⟩
    have floor : -cfg.trading.stopLossPercent < 0 := neg_neg_of_pos limited
    exact absurd lost (not_le.mpr (floor.trans risen))
  · exact won

end HadesPsTrader.Market
