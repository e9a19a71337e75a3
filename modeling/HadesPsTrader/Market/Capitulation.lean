/- Module: HadesPsTrader/Market/Capitulation
   source: src/capitulation.rs
   digest: The two-stage dump-and-reclaim entry detector. -/

import HadesPsTrader.Market.Config

set_option autoImplicit false
set_option relaxedAutoImplicit false

namespace HadesPsTrader.Market

/-- Drop the entries at the front of a time-stamped queue that are older than the window. -/
def evictOld {α : Type} (window : Duration) (now : Instant) :
    List (Instant × α) → List (Instant × α)
  | [] => []
  | (ts, a) :: rest =>
      if window < durationSince now ts then evictOld window now rest else (ts, a) :: rest

namespace Capitulation

def minTicksForFire : Nat := 10

end Capitulation

structure CapitulationDetector where
  enabled : Bool
  dipPct : ℚ
  reclaimPct : ℚ
  window : Duration
  pendingExpire : Duration
  reclaimConfirm : Duration
  debounce : Duration
  ticks : List (Instant × ℚ) := []
  pendingLow : Option ℚ := none
  pendingStarted : Option Instant := none
  reclaimConfirmStarted : Option Instant := none
  lastFire : Option Instant := none
  deriving DecidableEq

structure ReclaimSignal where
  low : ℚ
  price : ℚ
  /-- None where the percentage is not finite. -/
  reclaimPct : Option ℚ
  dumpPct : ℚ
  windowSecs : Nat
  deriving DecidableEq

namespace CapitulationDetector

def new (cfg : CapitulationConfig) : CapitulationDetector where
  enabled := cfg.enabled
  dipPct := cfg.dipPct
  reclaimPct := cfg.reclaimPct
  window := fromSecs cfg.windowSecs
  pendingExpire := fromSecs cfg.pendingExpireSecs
  reclaimConfirm := fromSecs cfg.reclaimConfirmSecs
  debounce := fromSecs cfg.debounceSecs

def resetPending (d : CapitulationDetector) : CapitulationDetector :=
  { d with pendingLow := none, pendingStarted := none, reclaimConfirmStarted := none }

def observe (d : CapitulationDetector) (now : Instant) (price : ℚ) : CapitulationDetector :=
  if d.enabled then { d with ticks := evictOld d.window now d.ticks ++ [(now, price)] } else d

def expirePending (d : CapitulationDetector) (now : Instant) : CapitulationDetector :=
  match d.pendingStarted with
  | some started => if d.pendingExpire < durationSince now started then d.resetPending else d
  | none => d

/-- STAGE 1: record the local low of a dump and drop any confirmation when it moves. -/
def recordLow (d : CapitulationDetector) (now : Instant) (price : ℚ) : CapitulationDetector :=
  match d.pendingLow with
  | some low =>
      if price < low then { d with pendingLow := some price, reclaimConfirmStarted := none } else d
  | none => { d with
      pendingLow := some price, pendingStarted := some now, reclaimConfirmStarted := none }

/-- `reclaim_pct_now`. Over a low of zero the quotient is infinite, or not a number. -/
def reclaimPctNow (price low : ℚ) : Option ℚ :=
  if low = 0 then none else some ((price / low - 1) * 100)

/-- `reclaim_pct_now < reclaim_pct`. Of what is not finite, only the negative infinity is below. -/
def relapsed (d : CapitulationDetector) (price low : ℚ) : Bool :=
  match reclaimPctNow price low with
  | some pct => pct < d.reclaimPct
  | none => price < 0

def confirmReclaim (d : CapitulationDetector) (now : Instant) (price dumpPct : ℚ) :
    CapitulationDetector × Option ReclaimSignal :=
  match d.pendingLow with
  | none => (d, none)
  | some low =>
      if d.relapsed price low then ({ d with reclaimConfirmStarted := none }, none)
      else if d.ticks.length < Capitulation.minTicksForFire then (d, none)
      else
        let started := d.reclaimConfirmStarted.getD now
        let d := { d with reclaimConfirmStarted := some started }
        if durationSince now started < d.reclaimConfirm then (d, none)
        else ({ d with lastFire := some now }.resetPending,
          some ⟨low, price, reclaimPctNow price low, -dumpPct, asSecs d.window⟩)

def check (d : CapitulationDetector) (now : Instant) (price : ℚ) :
    CapitulationDetector × Option ReclaimSignal :=
  if !d.enabled then (d, none)
  else
    let d := { d with ticks := evictOld d.window now d.ticks }
    if d.lastFire.any fun t => durationSince now t < d.debounce then (d, none)
    else match d.ticks.head? with
    | none => (d, none)
    | some (oldestTs, oldestPrice) =>
        let needed := d.window - fromSecs 1
        if durationSince now oldestTs < needed then (d, none)
        else if oldestPrice ≤ 0 then (d, none)
        else
          let d := d.expirePending now
          let dumpPct := (price / oldestPrice - 1) * 100
          if dumpPct ≤ -d.dipPct then (d.recordLow now price, none)
          else d.confirmReclaim now price dumpPct

theorem reclaimPctNow_of_ne (price : ℚ) {low : ℚ} (nonzero : low ≠ 0) :
    reclaimPctNow price low = some ((price / low - 1) * 100) :=
  if_neg nonzero

theorem relapsed_of_ne (d : CapitulationDetector) (price : ℚ) {low : ℚ} (nonzero : low ≠ 0) :
    d.relapsed price low = decide ((price / low - 1) * 100 < d.reclaimPct) := by
  rw [relapsed, reclaimPctNow_of_ne price nonzero]

@[simp] theorem observe_enabled (d : CapitulationDetector) (now : Instant) (price : ℚ) :
    (d.observe now price).enabled = d.enabled := by
  unfold observe
  split_ifs <;> rfl

private theorem expirePending_enabled (d : CapitulationDetector) (now : Instant) :
    (d.expirePending now).enabled = d.enabled := by
  unfold expirePending
  split
  · split_ifs <;> rfl
  · rfl

private theorem recordLow_enabled (d : CapitulationDetector) (now : Instant) (price : ℚ) :
    (d.recordLow now price).enabled = d.enabled := by
  unfold recordLow
  split
  · split_ifs <;> rfl
  · rfl

private theorem confirmReclaim_enabled (d : CapitulationDetector) (now : Instant)
    (price dumpPct : ℚ) : (d.confirmReclaim now price dumpPct).1.enabled = d.enabled := by
  unfold confirmReclaim
  split
  · rfl
  · dsimp only
    split_ifs <;> rfl

@[simp] theorem check_enabled (d : CapitulationDetector) (now : Instant) (price : ℚ) :
    (d.check now price).1.enabled = d.enabled := by
  unfold check
  dsimp only
  split_ifs
  · rfl
  · rfl
  · split
    · rfl
    · split_ifs
      · rfl
      · rfl
      · rw [recordLow_enabled, expirePending_enabled]
      · rw [confirmReclaim_enabled, expirePending_enabled]

end CapitulationDetector

end HadesPsTrader.Market
