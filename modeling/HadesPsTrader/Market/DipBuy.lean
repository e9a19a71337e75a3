/- Module: HadesPsTrader/Market/DipBuy
   source: src/dip_buy.rs
   digest: The dip-buy entry detector and the rolling daily spend tracker. -/

import HadesPsTrader.Market.Capitulation

set_option autoImplicit false
set_option relaxedAutoImplicit false

namespace HadesPsTrader.Market

namespace DipBuy

def minTicksForFire : Nat := 5

end DipBuy

def f64Max : ℚ := (2 ^ 53 - 1) * 2 ^ 971

def f64Epsilon : ℚ := 1 / 2 ^ 52

structure DipTick where
  price : ℚ
  poolSol : ℚ
  deriving DecidableEq

structure DipBuyDetector where
  enabled : Bool
  window : Duration
  minDrawdownPct : ℚ
  maxEntryQuantile : ℚ
  minPoolSolDrawdownPct : ℚ
  maxPoolSolDrawdownPct : ℚ
  minPoolSol : ℚ
  cooldown : Duration
  poolRecoverySecs : Nat
  poolRecoveryPct : ℚ
  priceRecoverySecs : Nat
  priceRecoveryPct : ℚ
  maxSessionAgeSecs : Nat
  sessionStart : Instant
  ticks : List (Instant × DipTick) := []
  lastFire : Option Instant := none
  deriving DecidableEq

structure DipSignal where
  drawdown : ℚ
  quantile : ℚ
  poolDrain : ℚ
  poolSol : ℚ
  deriving DecidableEq

namespace DipBuyDetector

def new (cfg : DipBuyConfig) (sessionStart : Instant) : DipBuyDetector where
  enabled := cfg.enabled
  window := fromSecs cfg.windowSecs
  minDrawdownPct := cfg.minDrawdownPct
  maxEntryQuantile := cfg.maxEntryQuantile
  minPoolSolDrawdownPct := cfg.minPoolSolDrawdownPct
  maxPoolSolDrawdownPct := cfg.maxPoolSolDrawdownPct
  minPoolSol := cfg.minPoolSol
  cooldown := fromSecs cfg.cooldownSecs
  poolRecoverySecs := cfg.poolRecoverySecs
  poolRecoveryPct := cfg.poolRecoveryPct
  priceRecoverySecs := cfg.priceRecoverySecs
  priceRecoveryPct := cfg.priceRecoveryPct
  maxSessionAgeSecs := cfg.maxSessionAgeSecs
  sessionStart := sessionStart

def observe (d : DipBuyDetector) (now : Instant) (price poolSol : ℚ) : DipBuyDetector :=
  if d.enabled then { d with ticks := evictOld d.window now d.ticks ++ [(now, ⟨price, poolSol⟩)] }
  else d

/-- The least value among the ticks not before the cutoff; `none` stands for `f64::INFINITY`. The
cutoff itself is `none` when the clock is younger than the recovery window. -/
def minRecent (cutoff : Option Instant) (value : DipTick → ℚ) (ticks : List (Instant × DipTick)) :
    Option ℚ :=
  ticks.foldl (fun least t =>
    if (cutoff.all fun c => c ≤ t.1) && (least.all fun m => value t.2 < m) then some (value t.2)
    else least) none

def recovered (now : Instant) (secs : Nat) (pct : ℚ) (value : DipTick → ℚ) (entry : ℚ)
    (ticks : List (Instant × DipTick)) : Bool :=
  if 0 < secs then
    let cutoff := if fromSecs secs ≤ now then some (now - fromSecs secs) else none
    (minRecent cutoff value ticks).all fun least => least * (1 + pct) ≤ entry
  else true

/-- Every criterion of a fire, on the ticks now held. -/
def signal (d : DipBuyDetector) (now : Instant) : Option DipSignal :=
  if d.ticks.length < DipBuy.minTicksForFire then none
  else match d.ticks.head?, d.ticks.getLast? with
  | some (oldestTs, _), some (_, entry) =>
      let needed := d.window - fromSecs 1
      if durationSince now oldestTs < needed then none
      else if entry.poolSol < d.minPoolSol then none
      else
        let maxPrice := (d.ticks.map fun t => t.2.price).foldl max (-f64Max)
        let minPrice := (d.ticks.map fun t => t.2.price).foldl min f64Max
        let maxPoolSol := (d.ticks.map fun t => t.2.poolSol).foldl max (-f64Max)
        if maxPrice ≤ 0 ∨ maxPoolSol ≤ 0 ∨ |maxPrice - minPrice| < f64Epsilon then none
        else
          let drawdownPct := (maxPrice - entry.price) / maxPrice
          let quantile := (entry.price - minPrice) / (maxPrice - minPrice)
          let poolDrawdownPct := (maxPoolSol - entry.poolSol) / maxPoolSol
          if ¬(d.minDrawdownPct ≤ drawdownPct ∧ quantile ≤ d.maxEntryQuantile ∧
              d.minPoolSolDrawdownPct ≤ poolDrawdownPct) then none
          else if 0 < d.maxPoolSolDrawdownPct ∧ d.maxPoolSolDrawdownPct < poolDrawdownPct then none
          else if !recovered now d.poolRecoverySecs d.poolRecoveryPct DipTick.poolSol
              entry.poolSol d.ticks then none
          else if !recovered now d.priceRecoverySecs d.priceRecoveryPct DipTick.price
              entry.price d.ticks then none
          else some ⟨drawdownPct, quantile, poolDrawdownPct, entry.poolSol⟩
  | _, _ => none

/-- Cooldown and session age gate the criteria; a fire restarts the cooldown. -/
def check (d : DipBuyDetector) (now : Instant) : DipBuyDetector × Option DipSignal :=
  if !d.enabled then (d, none)
  else if d.lastFire.any fun t => durationSince now t < d.cooldown then (d, none)
  else if 0 < d.maxSessionAgeSecs ∧ d.maxSessionAgeSecs < asSecs (durationSince now d.sessionStart)
    then (d, none)
  else match d.signal now with
  | none => (d, none)
  | some reason => ({ d with lastFire := some now }, some reason)

@[simp] theorem observe_enabled (d : DipBuyDetector) (now : Instant) (price poolSol : ℚ) :
    (d.observe now price poolSol).enabled = d.enabled := by
  unfold observe
  split_ifs <;> rfl

@[simp] theorem check_enabled (d : DipBuyDetector) (now : Instant) :
    (d.check now).1.enabled = d.enabled := by
  unfold check
  split_ifs
  · rfl
  · rfl
  · rfl
  · cases d.signal now <;> rfl

end DipBuyDetector

/-- Rolling 24h spend cap, shared behind a mutex. -/
structure DailySpendTracker where
  capSol : ℚ
  window : Duration
  spends : List (Instant × ℚ)
  deriving DecidableEq

namespace DailySpendTracker

def new (capSol : ℚ) : DailySpendTracker := ⟨capSol, fromSecs (24 * 60 * 60), []⟩

def evict (t : DailySpendTracker) (now : Instant) : DailySpendTracker :=
  { t with spends := evictOld t.window now t.spends }

def total (t : DailySpendTracker) : ℚ := (t.spends.map Prod.snd).sum

/-- Would a spend stay within the cap? Otherwise the amount already spent. -/
def check (t : DailySpendTracker) (now : Instant) (amountSol : ℚ) :
    DailySpendTracker × Except ℚ Unit :=
  let t := t.evict now
  if t.capSol < t.total + amountSol then (t, .error t.total) else (t, .ok ())

def record (t : DailySpendTracker) (now : Instant) (amountSol : ℚ) : DailySpendTracker :=
  let t := t.evict now
  { t with spends := t.spends ++ [(now, amountSol)] }

def total24h (t : DailySpendTracker) (now : Instant) : DailySpendTracker × ℚ :=
  let t := t.evict now
  (t, t.total)

end DailySpendTracker

end HadesPsTrader.Market
