/- Module: HadesPsTrader/Market/Position
   source: src/position.rs
   digest: Open positions, trailing tiers and the PnL exit rules. -/

import Mathlib.Data.List.Sort
import HadesPsTrader.Market.Config

set_option autoImplicit false
set_option relaxedAutoImplicit false

namespace HadesPsTrader.Market

inductive EntryTrigger
  | macd | capitulation | dipBuy
  deriving DecidableEq

structure Position where
  mint : String
  name : Option String
  symbol : Option String
  entryPriceSol : ℚ
  costSol : ℚ
  peakPct : ℚ
  boughtAt : Instant
  entryTrigger : EntryTrigger
  deriving DecidableEq

namespace Position

def pnlPct (pos : Position) (currentPriceSol : ℚ) : ℚ :=
  if pos.entryPriceSol ≤ 0 then 0
  else (currentPriceSol - pos.entryPriceSol) / pos.entryPriceSol * 100

def updatePeak (pos : Position) (currentPct : ℚ) : Position :=
  { pos with peakPct := if pos.peakPct < currentPct then currentPct else pos.peakPct }

@[simp] theorem updatePeak_boughtAt (pos : Position) (pct : ℚ) :
    (pos.updatePeak pct).boughtAt = pos.boughtAt := rfl

end Position

structure TrailTier where
  gainPct : ℚ
  trailPct : ℚ
  deriving DecidableEq

def isWhitespace (c : Char) : Bool :=
  let n := c.toNat
  (9 ≤ n && n ≤ 13) || n = 0x20 || n = 0x85 || n = 0xA0 || n = 0x1680 ||
    (0x2000 ≤ n && n ≤ 0x200A) || n = 0x2028 || n = 0x2029 || n = 0x202F || n = 0x205F ||
    n = 0x3000

def trim (cs : List Char) : List Char :=
  ((cs.dropWhile isWhitespace).reverse.dropWhile isWhitespace).reverse

def digitsValue (cs : List Char) : Option Nat :=
  cs.foldl (fun acc c => acc.bind fun n =>
    if '0' ≤ c ∧ c ≤ '9' then some (n * 10 + (c.toNat - '0'.toNat)) else none) (some 0)

def takeSign : List Char → ℚ × List Char
  | '-' :: cs => (-1, cs)
  | '+' :: cs => (1, cs)
  | cs => (1, cs)

def parseExponent (cs : List Char) : Option ℚ :=
  match takeSign cs with
  | (_, []) => none
  | (sign, digits) => (digitsValue digits).map fun n =>
      if sign < 0 then 1 / (10 : ℚ) ^ n else (10 : ℚ) ^ n

/-- Digits with at most one point, at least one digit in all. -/
def parseMantissa (cs : List Char) : Option ℚ :=
  match cs.splitOn '.' with
  | [whole] => if whole = [] then none else (digitsValue whole).map fun n => (n : ℚ)
  | [whole, frac] =>
      if whole = [] ∧ frac = [] then none
      else (digitsValue whole).bind fun n => (digitsValue frac).map fun m =>
        (n : ℚ) + (m : ℚ) / 10 ^ frac.length
  | _ => none

/-- `str::parse::<f64>` on finite literals, read exactly; `inf` and `nan` are outside the model. -/
def parseF64 (cs : List Char) : Option ℚ :=
  let (sign, body) := takeSign cs
  match body.splitOnP (fun c => c = 'e' || c = 'E') with
  | [mantissa] => (parseMantissa mantissa).map (sign * ·)
  | [mantissa, exponent] => (parseMantissa mantissa).bind fun m =>
      (parseExponent exponent).map fun e => sign * m * e
  | _ => none

def parseTier (entry : List Char) : Option TrailTier :=
  match (trim entry).splitOn ':' with
  | g :: t :: _ => (parseF64 (trim g)).bind fun gainPct =>
      (parseF64 (trim t)).map fun trailPct => ⟨gainPct, trailPct⟩
  | _ => none

/-- Parse `"12:7,20:10"` into tiers ascending by gain; the sort is stable. -/
def parseTiers (s : String) : List TrailTier :=
  ((s.toList.splitOn ',').filterMap parseTier).insertionSort fun a b => a.gainPct ≤ b.gainPct

inductive ExitReason
  | stopLoss (pct : ℚ)
  | takeProfit (pct : ℚ)
  | dynamicTrail (tierGain trail triggerAtPct currentPct : ℚ)
  | maxHoldTime (elapsedSecs : Nat) (currentPct : ℚ)
  deriving DecidableEq

/-- The trailing rule: the highest tier the peak has reached, if PnL fell its trail below it. -/
def trailExit (peakPct currentPct : ℚ) (tiers : List TrailTier) : Option ExitReason :=
  match tiers.reverse.find? fun t => t.gainPct ≤ peakPct with
  | none => none
  | some tier =>
      let trigger := peakPct - tier.trailPct
      if currentPct ≤ trigger then
        some (.dynamicTrail tier.gainPct tier.trailPct trigger currentPct)
      else none

/-- Time stop, stop-loss, trailing stop, take-profit ceiling. -/
def decideExitDipBuy (pos : Position) (currentPct : ℚ) (elapsedSecs : Nat)
    (cfg : DipBuyExitConfig) (tiers : List TrailTier) : Option ExitReason :=
  if 0 < cfg.maxHoldSecs ∧ cfg.maxHoldSecs ≤ elapsedSecs then
    some (.maxHoldTime elapsedSecs currentPct)
  else if 0 < cfg.stopLossPct ∧ currentPct ≤ -cfg.stopLossPct then
    some (.stopLoss currentPct)
  else match trailExit pos.peakPct currentPct tiers with
  | some reason => some reason
  | none =>
      if 0 < cfg.takeProfitPct ∧ cfg.takeProfitPct ≤ currentPct then
        some (.takeProfit currentPct)
      else none

/-- Time cap, stop-loss, take-profit, trailing stop. -/
def decideExitUniversal (pos : Position) (currentPct : ℚ) (elapsedSecs : Nat)
    (cfg : Trading) (tiers : List TrailTier) : Option ExitReason :=
  if 0 < cfg.maxHoldTime ∧ cfg.maxHoldTime ≤ elapsedSecs then
    some (.maxHoldTime elapsedSecs currentPct)
  else if 0 < cfg.stopLossPercent ∧ currentPct ≤ -cfg.stopLossPercent then
    some (.stopLoss currentPct)
  else if 0 < cfg.profitTargetPercent ∧ cfg.profitTargetPercent ≤ currentPct then
    some (.takeProfit currentPct)
  else trailExit pos.peakPct currentPct tiers

def decideExit (pos : Position) (currentPct : ℚ) (elapsedSecs : Nat) (cfg : Trading)
    (dipBuyExit : DipBuyExitConfig) (universalTiers dipBuyTiers : List TrailTier) :
    Option ExitReason :=
  match pos.entryTrigger with
  | .dipBuy => decideExitDipBuy pos currentPct elapsedSecs dipBuyExit dipBuyTiers
  | .macd => decideExitUniversal pos currentPct elapsedSecs cfg universalTiers
  | .capitulation => decideExitUniversal pos currentPct elapsedSecs cfg universalTiers

/-- The holding cap that applies to positions of a trigger, in seconds; 0 is no cap. -/
def maxHold (trigger : EntryTrigger) (cfg : Config) : Nat :=
  match trigger with
  | .dipBuy => cfg.dipBuyExit.maxHoldSecs
  | .macd => cfg.trading.maxHoldTime
  | .capitulation => cfg.trading.maxHoldTime

theorem decideExit_of_maxHold (pos : Position) (currentPct : ℚ) (elapsedSecs : Nat)
    (cfg : Config) (universalTiers dipBuyTiers : List TrailTier)
    (capped : 0 < maxHold pos.entryTrigger cfg)
    (reached : maxHold pos.entryTrigger cfg ≤ elapsedSecs) :
    decideExit pos currentPct elapsedSecs cfg.trading cfg.dipBuyExit universalTiers dipBuyTiers =
      some (.maxHoldTime elapsedSecs currentPct) := by
  unfold decideExit
  cases trigger : pos.entryTrigger <;> rw [trigger] at capped reached <;>
    simp only [maxHold] at capped reached
  · exact if_pos ⟨capped, reached⟩
  · exact if_pos ⟨capped, reached⟩
  · exact if_pos ⟨capped, reached⟩

example : parseTiers "20:10, 12:7,x:1,40:1.5e1" = [⟨12, 7⟩, ⟨20, 10⟩, ⟨40, 15⟩] := by
  decide +kernel

end HadesPsTrader.Market
