/- Module: HadesPsTrader/Market/ExitRules
   source: src/position.rs, src/session.rs
   digest: The PnL exit of an open position, as rules in order over its holding period. -/

import HadesPsTrader.Interaction.Extremes
import HadesPsTrader.Interaction.Selection
import HadesPsTrader.Market.Position

set_option autoImplicit false
set_option relaxedAutoImplicit false

open HadesPsTrader.Interaction

namespace HadesPsTrader.Market

/-- The well-formed entries of a tier string, as listed. -/
def listedTiers (s : String) : List TrailTier := (s.toList.splitOn ',').filterMap parseTier

/-- The exit settings for positions of one trigger. -/
structure ExitSettings where
  maxHoldSecs : Nat
  stopLossPct : ℚ
  takeProfitPct : ℚ
  trailTiers : String

def exitSettings (cfg : Config) : EntryTrigger → ExitSettings
  | .dipBuy => ⟨cfg.dipBuyExit.maxHoldSecs, cfg.dipBuyExit.stopLossPct,
      cfg.dipBuyExit.takeProfitPct, cfg.dipBuyExit.trailTiers⟩
  | .macd => ⟨cfg.trading.maxHoldTime, cfg.trading.stopLossPercent,
      cfg.trading.profitTargetPercent, cfg.trading.dynamicTrailingStopThresholds⟩
  | .capitulation => ⟨cfg.trading.maxHoldTime, cfg.trading.stopLossPercent,
      cfg.trading.profitTargetPercent, cfg.trading.dynamicTrailingStopThresholds⟩

inductive ExitRule
  | maxHold | stopLoss | takeProfit | trailing
  deriving DecidableEq

/-- The order in which they are asked. -/
def exitPriority : EntryTrigger → List ExitRule
  | .dipBuy => [.maxHold, .stopLoss, .trailing, .takeProfit]
  | .macd => [.maxHold, .stopLoss, .takeProfit, .trailing]
  | .capitulation => [.maxHold, .stopLoss, .takeProfit, .trailing]

structure Standing where
  peakPct : ℚ
  currentPct : ℚ
  elapsedSecs : Nat

/-- A rule holds, and gives its reason. The trailing tier is the listed one with the greatest gain
that the peak has reached, the last of several. -/
def ExitRule.Holds (e : ExitSettings) (s : Standing) : ExitRule → ExitReason → Prop
  | .maxHold, r => 0 < e.maxHoldSecs ∧ e.maxHoldSecs ≤ s.elapsedSecs ∧
      r = .maxHoldTime s.elapsedSecs s.currentPct
  | .stopLoss, r => 0 < e.stopLossPct ∧ s.currentPct ≤ -e.stopLossPct ∧
      r = .stopLoss s.currentPct
  | .takeProfit, r => 0 < e.takeProfitPct ∧ e.takeProfitPct ≤ s.currentPct ∧
      r = .takeProfit s.currentPct
  | .trailing, r => ∃ tier,
      LastGreatest TrailTier.gainPct s.peakPct (listedTiers e.trailTiers) tier ∧
      s.currentPct ≤ s.peakPct - tier.trailPct ∧
      r = .dynamicTrail tier.gainPct tier.trailPct (s.peakPct - tier.trailPct) s.currentPct

/-- The first rule that holds gives `r`; `none` when no rule holds. -/
def ExitGiven (cfg : Config) (trigger : EntryTrigger) (s : Standing) : Option ExitReason → Prop
  | some r => ∃ before rule after, exitPriority trigger = before ++ rule :: after ∧
      rule.Holds (exitSettings cfg trigger) s r ∧
      ∀ earlier ∈ before, ∀ r', ¬ earlier.Holds (exitSettings cfg trigger) s r'
  | none => ∀ rule ∈ exitPriority trigger, ∀ r, ¬ rule.Holds (exitSettings cfg trigger) s r

section Rules

variable {e : ExitSettings} {s : Standing} {r : ExitReason}

theorem trailExit_iff : trailExit s.peakPct s.currentPct (parseTiers e.trailTiers) = some r ↔
    ExitRule.trailing.Holds e s r := by
  have selected (tier : TrailTier) :
      ((parseTiers e.trailTiers).reverse.find? fun t => t.gainPct ≤ s.peakPct) = some tier ↔
        LastGreatest TrailTier.gainPct s.peakPct (listedTiers e.trailTiers) tier :=
    lastWithin_insertionSort
  rw [trailExit, ExitRule.Holds]
  cases found : (parseTiers e.trailTiers).reverse.find? fun t => t.gainPct ≤ s.peakPct with
  | none =>
      refine iff_of_false nofun ?_
      rintro ⟨tier, last, _⟩
      rw [(selected tier).mpr last] at found
      cases found
  | some tier =>
      have last := (selected tier).mp found
      dsimp only
      split_ifs with fell
      · constructor
        · intro same
          cases same
          exact ⟨tier, last, fell, rfl⟩
        · rintro ⟨other, again, _, rfl⟩
          cases found.symm.trans ((selected other).mpr again)
          rfl
      · refine iff_of_false nofun ?_
        rintro ⟨other, again, below, _⟩
        cases found.symm.trans ((selected other).mpr again)
        exact fell below

def ExitRule.reason (e : ExitSettings) (s : Standing) : ExitRule → Option ExitReason
  | .maxHold => if 0 < e.maxHoldSecs ∧ e.maxHoldSecs ≤ s.elapsedSecs then
      some (.maxHoldTime s.elapsedSecs s.currentPct) else none
  | .stopLoss => if 0 < e.stopLossPct ∧ s.currentPct ≤ -e.stopLossPct then
      some (.stopLoss s.currentPct) else none
  | .takeProfit => if 0 < e.takeProfitPct ∧ e.takeProfitPct ≤ s.currentPct then
      some (.takeProfit s.currentPct) else none
  | .trailing => trailExit s.peakPct s.currentPct (parseTiers e.trailTiers)

theorem ExitRule.reason_eq_some {rule : ExitRule} :
    rule.reason e s = some r ↔ rule.Holds e s r := by
  cases rule with
  | trailing => exact trailExit_iff
  | _ =>
      rw [reason, Holds]
      split_ifs with holds
      · simp [holds, eq_comm]
      · exact iff_of_false nofun fun h => holds ⟨h.1, h.2.1⟩

theorem ExitRule.reason_eq_none {rule : ExitRule} :
    rule.reason e s = none ↔ ∀ r, ¬ rule.Holds e s r := by
  rw [Option.eq_none_iff_forall_ne_some]
  exact forall_congr' fun r => not_congr reason_eq_some

theorem decideExitDipBuy_eq (pos : Position) (cfg : DipBuyExitConfig) (currentPct : ℚ)
    (elapsedSecs : Nat) :
    decideExitDipBuy pos currentPct elapsedSecs cfg (parseTiers cfg.trailTiers) =
      (exitPriority .dipBuy).findSome? (ExitRule.reason
        ⟨cfg.maxHoldSecs, cfg.stopLossPct, cfg.takeProfitPct, cfg.trailTiers⟩
        ⟨pos.peakPct, currentPct, elapsedSecs⟩) := by
  simp only [decideExitDipBuy, exitPriority, List.findSome?_cons, ExitRule.reason]
  by_cases held : 0 < cfg.maxHoldSecs ∧ cfg.maxHoldSecs ≤ elapsedSecs
  · simp only [if_pos held]
  by_cases lost : 0 < cfg.stopLossPct ∧ currentPct ≤ -cfg.stopLossPct
  · simp only [if_neg held, if_pos lost]
  simp only [if_neg held, if_neg lost]
  cases trailExit pos.peakPct currentPct (parseTiers cfg.trailTiers) with
  | some r => rfl
  | none => split_ifs <;> rfl

theorem decideExitUniversal_eq (pos : Position) (cfg : Trading) (currentPct : ℚ)
    (elapsedSecs : Nat) :
    decideExitUniversal pos currentPct elapsedSecs cfg
        (parseTiers cfg.dynamicTrailingStopThresholds) =
      (exitPriority .macd).findSome? (ExitRule.reason
        ⟨cfg.maxHoldTime, cfg.stopLossPercent, cfg.profitTargetPercent,
          cfg.dynamicTrailingStopThresholds⟩
        ⟨pos.peakPct, currentPct, elapsedSecs⟩) := by
  simp only [decideExitUniversal, exitPriority, List.findSome?_cons, ExitRule.reason]
  by_cases held : 0 < cfg.maxHoldTime ∧ cfg.maxHoldTime ≤ elapsedSecs
  · simp only [if_pos held]
  by_cases lost : 0 < cfg.stopLossPercent ∧ currentPct ≤ -cfg.stopLossPercent
  · simp only [if_neg held, if_pos lost]
  by_cases won : 0 < cfg.profitTargetPercent ∧ cfg.profitTargetPercent ≤ currentPct
  · simp only [if_neg held, if_neg lost, if_pos won]
  simp only [if_neg held, if_neg lost, if_neg won]
  cases trailExit pos.peakPct currentPct (parseTiers cfg.dynamicTrailingStopThresholds) with
  | some r => rfl
  | none => rfl

theorem decideExit_eq (cfg : Config) (pos : Position) (currentPct : ℚ) (elapsedSecs : Nat) :
    decideExit pos currentPct elapsedSecs cfg.trading cfg.dipBuyExit
        (parseTiers cfg.trading.dynamicTrailingStopThresholds)
        (parseTiers cfg.dipBuyExit.trailTiers) =
      (exitPriority pos.entryTrigger).findSome? (ExitRule.reason
        (exitSettings cfg pos.entryTrigger) ⟨pos.peakPct, currentPct, elapsedSecs⟩) := by
  rw [decideExit]
  cases pos.entryTrigger with
  | dipBuy => exact decideExitDipBuy_eq pos cfg.dipBuyExit currentPct elapsedSecs
  | macd => exact decideExitUniversal_eq pos cfg.trading currentPct elapsedSecs
  | capitulation => exact decideExitUniversal_eq pos cfg.trading currentPct elapsedSecs

theorem exitGiven_iff (cfg : Config) (trigger : EntryTrigger) (given : Option ExitReason) :
    (exitPriority trigger).findSome? (ExitRule.reason (exitSettings cfg trigger) s) = given ↔
      ExitGiven cfg trigger s given := by
  cases given with
  | none =>
      rw [List.findSome?_eq_none_iff, ExitGiven]
      exact forall₂_congr fun rule _ => ExitRule.reason_eq_none
  | some r =>
      rw [List.findSome?_eq_some_iff, ExitGiven]
      simp only [ExitRule.reason_eq_some, ExitRule.reason_eq_none]

/-- The exit decision is the first rule that holds. -/
theorem decideExit_iff (cfg : Config) (pos : Position) (currentPct : ℚ) (elapsedSecs : Nat)
    (given : Option ExitReason) :
    decideExit pos currentPct elapsedSecs cfg.trading cfg.dipBuyExit
        (parseTiers cfg.trading.dynamicTrailingStopThresholds)
        (parseTiers cfg.dipBuyExit.trailTiers) = given ↔
      ExitGiven cfg pos.entryTrigger ⟨pos.peakPct, currentPct, elapsedSecs⟩ given := by
  rw [decideExit_eq, exitGiven_iff]

section Universal

variable {cfg : Config} {trigger : EntryTrigger} (universal : trigger ≠ .dipBuy)

include universal

theorem universal_rules : exitPriority trigger = exitPriority .macd ∧
    exitSettings cfg trigger = exitSettings cfg .macd := by
  cases trigger with
  | dipBuy => exact absurd rfl universal
  | macd => exact ⟨rfl, rfl⟩
  | capitulation => exact ⟨rfl, rfl⟩

theorem ExitGiven.of_trail {tierGain trail triggerAtPct currentPct : ℚ}
    (given : ExitGiven cfg trigger s
      (some (.dynamicTrail tierGain trail triggerAtPct currentPct))) :
    (∃ tier ∈ listedTiers cfg.trading.dynamicTrailingStopThresholds, tier.gainPct ≤ s.peakPct) ∧
      ¬ (0 < cfg.trading.maxHoldTime ∧ cfg.trading.maxHoldTime ≤ s.elapsedSecs) ∧
      ¬ (0 < cfg.trading.profitTargetPercent ∧ cfg.trading.profitTargetPercent ≤ s.currentPct) := by
  obtain ⟨priority, settings⟩ := @universal_rules cfg trigger universal
  rw [← exitGiven_iff, priority, settings, exitPriority, exitSettings] at given
  simp only [List.findSome?_cons, List.findSome?_nil, ExitRule.reason] at given
  by_cases held : 0 < cfg.trading.maxHoldTime ∧ cfg.trading.maxHoldTime ≤ s.elapsedSecs
  · rw [if_pos held] at given
    cases given
  rw [if_neg held] at given
  by_cases lost : 0 < cfg.trading.stopLossPercent ∧ s.currentPct ≤ -cfg.trading.stopLossPercent
  · simp only [if_pos lost] at given
    cases given
  by_cases won : 0 < cfg.trading.profitTargetPercent ∧
      cfg.trading.profitTargetPercent ≤ s.currentPct
  · simp only [if_neg lost, if_pos won] at given
    cases given
  simp only [if_neg lost, if_neg won] at given
  cases trailed : trailExit s.peakPct s.currentPct
    (parseTiers cfg.trading.dynamicTrailingStopThresholds) with
  | none =>
      rw [trailed] at given
      cases given
  | some r =>
      have holds : ExitRule.trailing.Holds (exitSettings cfg .macd) s r := trailExit_iff.mp trailed
      obtain ⟨tier, last, _⟩ := holds
      exact ⟨⟨tier, last.mem, last.within⟩, held, won⟩

theorem exitGiven_takeProfit
    (held : ¬ (0 < cfg.trading.maxHoldTime ∧ cfg.trading.maxHoldTime ≤ s.elapsedSecs))
    (lost : ¬ (0 < cfg.trading.stopLossPercent ∧ s.currentPct ≤ -cfg.trading.stopLossPercent))
    (won : 0 < cfg.trading.profitTargetPercent ∧
      cfg.trading.profitTargetPercent ≤ s.currentPct) :
    ExitGiven cfg trigger s (some (.takeProfit s.currentPct)) := by
  obtain ⟨priority, settings⟩ := @universal_rules cfg trigger universal
  rw [← exitGiven_iff, priority, settings, exitPriority, exitSettings]
  simp only [List.findSome?_cons, ExitRule.reason, if_neg held, if_neg lost, if_pos won]

end Universal

end Rules

/-! ### A holding period -/

/-- A position over its holding period: how it was entered, and the ticks it has seen since, each
with its price and the clock reading for its age. -/
structure Holding where
  entryPriceSol : ℚ := 0
  boughtAt : Instant := 0
  trigger : EntryTrigger := .macd
  ticks : List (ℚ × Instant) := []

namespace Holding

variable (h : Holding)

def pnl (priceSol : ℚ) : ℚ := (priceSol - h.entryPriceSol) / h.entryPriceSol * 100

/-- The greatest PnL so far, or zero. -/
def peak : ℚ := (h.ticks.map fun x => h.pnl x.1).foldl max 0

def seen (priceSol : ℚ) (now : Instant) : Holding :=
  { h with ticks := h.ticks ++ [(priceSol, now)] }

def Gives (cfg : Config) (given : Option ExitReason) : Prop :=
  ∃ priceSol now, h.ticks.getLast? = some (priceSol, now) ∧
    ExitGiven cfg h.trigger
      ⟨h.peak, h.pnl priceSol, asSecs (durationSince now h.boughtAt)⟩ given

variable {h} in
theorem Gives.unique {cfg : Config} {given given' : Option ExitReason} (one : h.Gives cfg given)
    (other : h.Gives cfg given') : given = given' := by
  obtain ⟨priceSol, now, last, decided⟩ := one
  obtain ⟨_, _, last', decided'⟩ := other
  cases last.symm.trans last'
  rw [← exitGiven_iff] at decided decided'
  exact decided.symm.trans decided'

variable {h} in
theorem exists_peak (high : 0 < h.peak) : ∃ x ∈ h.ticks, h.pnl x.1 = h.peak := by
  have seen : h.ticks.map (fun x => h.pnl x.1) ≠ [] := by
    intro unseen
    rw [peak, unseen] at high
    exact lt_irrefl _ high
  obtain ⟨greatest, top⟩ := (exists_extremes seen).1
  have peak_eq : h.peak = max 0 greatest := foldl_max_eq top 0
  have greatest_eq : h.peak = greatest := by
    rcases max_choice 0 greatest with zero | same
    · rw [peak_eq, zero] at high
      exact absurd high (lt_irrefl _)
    · rw [peak_eq, same]
  obtain ⟨x, mem, same⟩ := List.mem_map.mp top.1
  exact ⟨x, mem, same.trans greatest_eq.symm⟩

/-- A position record is up to date with its holding period. -/
structure Tracks (pos : Position) : Prop where
  entryPriceSol : pos.entryPriceSol = h.entryPriceSol
  boughtAt : pos.boughtAt = h.boughtAt
  trigger : pos.entryTrigger = h.trigger
  peakPct : pos.peakPct = h.peak

variable {h} {pos : Position} {priceSol : ℚ} {now : Instant}

theorem peak_seen : (h.seen priceSol now).peak = max h.peak (h.pnl priceSol) := by
  rw [peak, seen, List.map_append, List.foldl_append]
  rfl

theorem Tracks.pnlPct (tracks : h.Tracks pos) (priced : 0 ≤ h.entryPriceSol) :
    pos.pnlPct priceSol = h.pnl priceSol := by
  rw [Position.pnlPct, pnl, tracks.entryPriceSol]
  split_ifs with free
  · -- the entry was free, and the quotient is zero as well
    rw [le_antisymm free priced, div_zero, zero_mul]
  · rfl

theorem Tracks.seen (tracks : h.Tracks pos) (priced : 0 ≤ h.entryPriceSol) :
    (h.seen priceSol now).Tracks (pos.updatePeak (pos.pnlPct priceSol)) := by
  refine ⟨tracks.entryPriceSol, tracks.boughtAt, tracks.trigger, ?_⟩
  rw [peak_seen, ← tracks.peakPct, ← tracks.pnlPct priced, max_def_lt]
  rfl

theorem Tracks.gives (cfg : Config) (tracks : h.Tracks pos) (priced : 0 ≤ h.entryPriceSol)
    (given : Option ExitReason) :
    decideExit (pos.updatePeak (pos.pnlPct priceSol)) (pos.pnlPct priceSol)
        (asSecs (durationSince now pos.boughtAt)) cfg.trading cfg.dipBuyExit
        (parseTiers cfg.trading.dynamicTrailingStopThresholds)
        (parseTiers cfg.dipBuyExit.trailTiers) = given ↔
      (h.seen priceSol now).Gives cfg given := by
  have updated : (h.seen priceSol now).Tracks _ := tracks.seen priced
  rw [decideExit_iff, updated.peakPct, updated.trigger, tracks.pnlPct priced, tracks.boughtAt]
  constructor
  · intro decided
    exact ⟨priceSol, now, List.getLast?_concat, decided⟩
  · rintro ⟨_, _, last, decided⟩
    cases (List.getLast?_concat (l := h.ticks)).symm.trans last
    exact decided

end Holding

end HadesPsTrader.Market
