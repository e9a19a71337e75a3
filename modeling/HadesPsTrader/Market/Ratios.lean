/- Module: HadesPsTrader/Market/Ratios
   source: src/rug.rs, src/capitulation.rs, src/dip_buy.rs, src/position.rs
   digest: The decisions on a tick with their divisions, and the one divisor that may be zero. -/

import HadesPsTrader.Interaction.Faults
import HadesPsTrader.Interaction.Guarded
import HadesPsTrader.Market.CapitulationRuns
import HadesPsTrader.Market.DipBuyRuns
import HadesPsTrader.Market.Position
import HadesPsTrader.Market.Rug

set_option autoImplicit false
set_option relaxedAutoImplicit false

namespace HadesPsTrader.Market

open Interaction (Guarded ok_bind)

/-- A computation that divides: its result, or the dividend of a division by zero. -/
abbrev Dividing (α : Type) := Except ℚ α

/-- `a / b` of two floats; by zero it is infinite or not a number. -/
def ratio (a b : ℚ) : Dividing ℚ := if b = 0 then .error a else .ok (a / b)

theorem ratio_bind {α : Type} {a b : ℚ} (nonzero : b ≠ 0) (f : ℚ → Dividing α) :
    (ratio a b >>= f) = f (a / b) := by
  rw [ratio, if_neg nonzero]
  rfl

theorem ratio_zero_bind {α : Type} (a : ℚ) (f : ℚ → Dividing α) :
    (ratio a 0 >>= f) = .error a := by
  rw [ratio, if_pos rfl]
  rfl

namespace Position

def pnlPctDividing (pos : Position) (currentPriceSol : ℚ) : Dividing ℚ :=
  if pos.entryPriceSol ≤ 0 then .ok 0
  else do
    let gain ← ratio (currentPriceSol - pos.entryPriceSol) pos.entryPriceSol
    return gain * 100

theorem pnlPctDividing_eq (pos : Position) (currentPriceSol : ℚ) :
    pos.pnlPctDividing currentPriceSol = .ok (pos.pnlPct currentPriceSol) := by
  rw [pnlPctDividing, pnlPct]
  split
  · rfl
  · next priced => exact ratio_bind (not_le.mp priced).ne' _

end Position

namespace RugGuard

/-- The drop of a value from its session peak, in percent, where it is beyond the limit. -/
def dropBeyond (limit peak value : ℚ) : Dividing (Option ℚ) :=
  if 0 < limit ∧ 0 < peak then do
    let share ← ratio value peak
    let dropPct := (1 - share) * 100
    return if limit < dropPct then some dropPct else none
  else .ok none

def isRuggedDividing (g : RugGuard) (f : RugFilter) (priceSol poolSol : ℚ) :
    Dividing (Option RugReason) :=
  if !f.enabled || g.samples < f.minSamples then .ok none
  else if 0 < f.minPoolSol ∧ poolSol < f.minPoolSol then
    .ok (some (.belowFloor poolSol f.minPoolSol))
  else do
    let drained ← dropBeyond f.maxLiquidityDropPct g.peakPoolSol poolSol
    match drained with
    | some dropPct => return some (.liquidityDrop dropPct g.peakPoolSol f.maxLiquidityDropPct)
    | none => do
      let fallen ← dropBeyond f.maxDrawdownPct g.peakPrice priceSol
      return fallen.map fun drawdownPct => .drawdown drawdownPct g.peakPrice f.maxDrawdownPct

theorem dropBeyond_eq (limit peak value : ℚ) : dropBeyond limit peak value =
    .ok (if 0 < limit ∧ 0 < peak ∧ limit < (1 - value / peak) * 100 then
      some ((1 - value / peak) * 100) else none) := by
  rw [dropBeyond]
  by_cases measured : 0 < limit ∧ 0 < peak
  · rw [if_pos measured, ratio_bind measured.2.ne']
    simp only [measured, true_and]
    rfl
  · rw [if_neg measured, if_neg fun beyond => measured ⟨beyond.1, beyond.2.1⟩]

theorem isRuggedDividing_eq (g : RugGuard) (f : RugFilter) (priceSol poolSol : ℚ) :
    g.isRuggedDividing f priceSol poolSol = .ok (g.isRugged f priceSol poolSol) := by
  rw [isRuggedDividing, isRugged, dropBeyond_eq, dropBeyond_eq]
  by_cases early : (!f.enabled || decide (g.samples < f.minSamples)) = true
  · rw [if_pos early, if_pos early]
  rw [if_neg early, if_neg early]
  by_cases floor : 0 < f.minPoolSol ∧ poolSol < f.minPoolSol
  · rw [if_pos floor, if_pos floor]
  rw [if_neg floor, if_neg floor]
  by_cases drained : 0 < f.maxLiquidityDropPct ∧ 0 < g.peakPoolSol ∧
      f.maxLiquidityDropPct < (1 - poolSol / g.peakPoolSol) * 100
  · rw [if_pos drained, if_pos drained]
    rfl
  rw [if_neg drained, if_neg drained]
  by_cases fallen : 0 < f.maxDrawdownPct ∧ 0 < g.peakPrice ∧
      f.maxDrawdownPct < (1 - priceSol / g.peakPrice) * 100
  · rw [if_pos fallen, if_pos fallen]
    rfl
  · rw [if_neg fallen, if_neg fallen]
    rfl

end RugGuard

namespace DipBuyDetector

/-- The ratios of the criteria, computed in this order once the extremes have passed their test. -/
def ratios (entry : DipTick) (maxPrice minPrice maxPoolSol : ℚ) : Dividing (ℚ × ℚ × ℚ) := do
  let drawdownPct ← ratio (maxPrice - entry.price) maxPrice
  let quantile ← ratio (entry.price - minPrice) (maxPrice - minPrice)
  let poolDrawdownPct ← ratio (maxPoolSol - entry.poolSol) maxPoolSol
  return (drawdownPct, quantile, poolDrawdownPct)

def signalDividing (d : DipBuyDetector) (now : Instant) : Dividing (Option DipSignal) :=
  if d.ticks.length < DipBuy.minTicksForFire then .ok none
  else match d.ticks.head?, d.ticks.getLast? with
  | some (oldestTs, _), some (_, entry) =>
      let needed := d.window - fromSecs 1
      if durationSince now oldestTs < needed then .ok none
      else if entry.poolSol < d.minPoolSol then .ok none
      else
        let maxPrice := (d.ticks.map fun t => t.2.price).foldl max (-f64Max)
        let minPrice := (d.ticks.map fun t => t.2.price).foldl min f64Max
        let maxPoolSol := (d.ticks.map fun t => t.2.poolSol).foldl max (-f64Max)
        if maxPrice ≤ 0 ∨ maxPoolSol ≤ 0 ∨ |maxPrice - minPrice| < f64Epsilon then .ok none
        else do
          let (drawdownPct, quantile, poolDrawdownPct) ←
            ratios entry maxPrice minPrice maxPoolSol
          if ¬(d.minDrawdownPct ≤ drawdownPct ∧ quantile ≤ d.maxEntryQuantile ∧
              d.minPoolSolDrawdownPct ≤ poolDrawdownPct) then return none
          else if 0 < d.maxPoolSolDrawdownPct ∧ d.maxPoolSolDrawdownPct < poolDrawdownPct then
            return none
          else if !recovered now d.poolRecoverySecs d.poolRecoveryPct DipTick.poolSol
              entry.poolSol d.ticks then return none
          else if !recovered now d.priceRecoverySecs d.priceRecoveryPct DipTick.price
              entry.price d.ticks then return none
          else return some ⟨drawdownPct, quantile, poolDrawdownPct, entry.poolSol⟩
  | _, _ => .ok none

def checkDividing (d : DipBuyDetector) (now : Instant) :
    Dividing (DipBuyDetector × Option DipSignal) :=
  if !d.enabled then .ok (d, none)
  else if d.lastFire.any fun t => durationSince now t < d.cooldown then .ok (d, none)
  else if 0 < d.maxSessionAgeSecs ∧ d.maxSessionAgeSecs < asSecs (durationSince now d.sessionStart)
    then .ok (d, none)
  else do
    let fired ← d.signalDividing now
    match fired with
    | none => return (d, none)
    | some reason => return ({ d with lastFire := some now }, some reason)

theorem ratios_bind {α : Type} {entry : DipTick} {maxPrice minPrice maxPoolSol : ℚ}
    (proper : ¬ (maxPrice ≤ 0 ∨ maxPoolSol ≤ 0 ∨ |maxPrice - minPrice| < f64Epsilon))
    (f : ℚ × ℚ × ℚ → Dividing α) : (ratios entry maxPrice minPrice maxPoolSol >>= f) =
      f ((maxPrice - entry.price) / maxPrice, (entry.price - minPrice) / (maxPrice - minPrice),
        (maxPoolSol - entry.poolSol) / maxPoolSol) := by
  obtain ⟨price, rest⟩ := not_or.mp proper
  obtain ⟨pool, apart⟩ := not_or.mp rest
  have spread : maxPrice - minPrice ≠ 0 := by
    intro zero
    rw [zero, abs_zero] at apart
    exact apart (by norm_num [f64Epsilon])
  rw [ratios, ratio_bind (not_le.mp price).ne', ratio_bind spread,
    ratio_bind (not_le.mp pool).ne']
  rfl

theorem signalDividing_eq (d : DipBuyDetector) (now : Instant) :
    d.signalDividing now = .ok (d.signal now) := by
  rw [signalDividing, signal]
  by_cases sparse : d.ticks.length < DipBuy.minTicksForFire
  · rw [if_pos sparse, if_pos sparse]
  rw [if_neg sparse, if_neg sparse]
  cases d.ticks.head? with
  | none => rfl
  | some first =>
    cases d.ticks.getLast? with
    | none => rfl
    | some last =>
      obtain ⟨oldestTs, _⟩ := first
      obtain ⟨_, entry⟩ := last
      dsimp only
      by_cases young : durationSince now oldestTs < d.window - fromSecs 1
      · rw [if_pos young, if_pos young]
      rw [if_neg young, if_neg young]
      by_cases shallow : entry.poolSol < d.minPoolSol
      · rw [if_pos shallow, if_pos shallow]
      rw [if_neg shallow, if_neg shallow]
      generalize (d.ticks.map fun t => t.2.price).foldl max (-f64Max) = maxPrice
      generalize (d.ticks.map fun t => t.2.price).foldl min f64Max = minPrice
      generalize (d.ticks.map fun t => t.2.poolSol).foldl max (-f64Max) = maxPoolSol
      by_cases improper : maxPrice ≤ 0 ∨ maxPoolSol ≤ 0 ∨ |maxPrice - minPrice| < f64Epsilon
      · rw [if_pos improper, if_pos improper]
      rw [if_neg improper, if_neg improper, ratios_bind improper]
      dsimp only
      split_ifs <;> rfl

theorem checkDividing_eq (d : DipBuyDetector) (now : Instant) :
    d.checkDividing now = .ok (d.check now) := by
  rw [checkDividing, check, signalDividing_eq]
  split_ifs
  · rfl
  · rfl
  · rfl
  · cases d.signal now <;> rfl

def guarded (cfg : DipBuyConfig) (sessionStart : Instant) :
    Guarded (machine cfg sessionStart) ℚ where
  step d t := (d.observe t.1 t.2.price t.2.poolSol).checkDividing t.1
  Safe _ _ := True
  defined := fun _ => checkDividing_eq _ _
  undefined := fun never => absurd trivial never

end DipBuyDetector

namespace CapitulationDetector

def confirmReclaimDividing (d : CapitulationDetector) (now : Instant) (price dumpPct : ℚ) :
    Dividing (CapitulationDetector × Option ReclaimSignal) :=
  match d.pendingLow with
  | none => .ok (d, none)
  | some low => do
      let bounce ← ratio price low
      let reclaimPctNow := (bounce - 1) * 100
      if reclaimPctNow < d.reclaimPct then
        return ({ d with reclaimConfirmStarted := none }, none)
      else if d.ticks.length < Capitulation.minTicksForFire then return (d, none)
      else
        let started := d.reclaimConfirmStarted.getD now
        let d := { d with reclaimConfirmStarted := some started }
        if durationSince now started < d.reclaimConfirm then return (d, none)
        else return ({ d with lastFire := some now }.resetPending,
          some ⟨low, price, some reclaimPctNow, -dumpPct, asSecs d.window⟩)

def stagesDividing (d : CapitulationDetector) (now : Instant) (price oldestPrice : ℚ) :
    Dividing (CapitulationDetector × Option ReclaimSignal) := do
  let d := d.expirePending now
  let share ← ratio price oldestPrice
  let dumpPct := (share - 1) * 100
  if dumpPct ≤ -d.dipPct then return (d.recordLow now price, none)
  else d.confirmReclaimDividing now price dumpPct

def checkDividing (d : CapitulationDetector) (now : Instant) (price : ℚ) :
    Dividing (CapitulationDetector × Option ReclaimSignal) :=
  if !d.enabled then .ok (d, none)
  else
    let d := { d with ticks := evictOld d.window now d.ticks }
    if d.lastFire.any fun t => durationSince now t < d.debounce then .ok (d, none)
    else match d.ticks.head? with
    | none => .ok (d, none)
    | some (oldestTs, oldestPrice) =>
        let needed := d.window - fromSecs 1
        if durationSince now oldestTs < needed then .ok (d, none)
        else if oldestPrice ≤ 0 then .ok (d, none)
        else d.stagesDividing now price oldestPrice

/-- STAGE 2 is reached while the pending low is zero. -/
def reclaimsZero (d : CapitulationDetector) (now : Instant) (price : ℚ) : Bool :=
  let d := { d with ticks := evictOld d.window now d.ticks }
  d.judges now && !d.dumped price && !d.expired now && d.pendingLow = some 0

theorem reclaimsZero_spec {d : CapitulationDetector} {now : Instant} {price : ℚ}
    (zero : d.reclaimsZero now price) : d.enabled ∧ d.pendingLow = some 0 := by
  simp only [reclaimsZero, judges, Bool.and_eq_true, decide_eq_true_eq] at zero
  exact ⟨zero.1.1.1.1.1, zero.2⟩

theorem confirmReclaimDividing_eq (d : CapitulationDetector) (now : Instant)
    (price dumpPct : ℚ) : d.confirmReclaimDividing now price dumpPct =
      if d.pendingLow = some 0 then .error price else .ok (d.confirmReclaim now price dumpPct) := by
  by_cases zero : d.pendingLow = some 0
  · rw [if_pos zero, confirmReclaimDividing, zero]
    exact ratio_zero_bind price _
  · rw [if_neg zero, confirmReclaimDividing, confirmReclaim]
    cases pending : d.pendingLow with
    | none => rfl
    | some low =>
      have nonzero : low ≠ 0 := fun same => zero (pending.trans (congrArg some same))
      dsimp only
      rw [ratio_bind nonzero, d.relapsed_of_ne price nonzero, reclaimPctNow_of_ne price nonzero]
      simp only [decide_eq_true_eq]
      split_ifs <;> rfl

theorem expirePending_low (d : CapitulationDetector) (now : Instant) (low : ℚ) :
    (d.expirePending now).pendingLow = some low ↔
      d.expired now = false ∧ d.pendingLow = some low := by
  rcases d.expirePending_cases now with ⟨live, same⟩ | ⟨old, cleared⟩
  · rw [same, live, and_iff_right rfl]
  · rw [cleared, old]
    exact iff_of_false nofun fun h => nomatch h.1

theorem stagesDividing_eq (d : CapitulationDetector) (now : Instant) {price oldestPrice : ℚ}
    (positive : 0 < oldestPrice) : d.stagesDividing now price oldestPrice =
      if ¬ (price / oldestPrice - 1) * 100 ≤ -d.dipPct ∧ d.expired now = false ∧
        d.pendingLow = some 0 then .error price
      else .ok (if (price / oldestPrice - 1) * 100 ≤ -(d.expirePending now).dipPct then
          ((d.expirePending now).recordLow now price, none)
        else (d.expirePending now).confirmReclaim now price ((price / oldestPrice - 1) * 100)) := by
  rw [stagesDividing, ratio_bind positive.ne', expirePending_dipPct]
  dsimp only
  by_cases dump : (price / oldestPrice - 1) * 100 ≤ -d.dipPct
  · rw [if_pos dump, if_pos dump, if_neg fun h => h.1 dump]
    rfl
  · rw [if_neg dump, if_neg dump, confirmReclaimDividing_eq]
    simp only [expirePending_low, dump, not_false_eq_true, true_and]

theorem checkDividing_eq (d : CapitulationDetector) (now : Instant) (price : ℚ) :
    d.checkDividing now price =
      if d.reclaimsZero now price then .error price else .ok (d.check now price) := by
  rw [checkDividing, check, reclaimsZero, judges, dumped]
  dsimp only
  -- the literal number of nanoseconds stays out of the comparisons below
  obtain ⟨needed, fixed⟩ : ∃ needed, d.window - fromSecs 1 = needed := ⟨_, rfl⟩
  rw [fixed]
  rw [d.debounced_eq now]
  cases d.enabled with
  | false => rfl
  | true =>
  cases d.lastFire.any fun t => durationSince now t < d.debounce with
  | true => rfl
  | false =>
  cases (evictOld d.window now d.ticks).head? with
  | none => rfl
  | some first =>
    obtain ⟨oldestTs, oldestPrice⟩ := first
    by_cases young : durationSince now oldestTs < needed
    · simp [young]
    by_cases bad : oldestPrice ≤ 0
    · simp [young, bad]
    have positive : 0 < oldestPrice := not_le.mp bad
    have judged : (decide (needed ≤ durationSince now oldestTs) && decide (0 < oldestPrice)) =
        true := by
      rw [decide_eq_true (not_lt.mp young), decide_eq_true positive]
      rfl
    simp only [young, bad, if_false, stagesDividing_eq _ _ positive, judged, Option.any_some,
      Bool.not_true, Bool.not_false, Bool.true_and, Bool.false_eq_true, Bool.and_eq_true,
      Bool.not_eq_true', decide_eq_true_eq, decide_eq_false_iff_not, and_assoc]

def guarded (cfg : CapitulationConfig) : Guarded (machine cfg) ℚ where
  step d t := (d.observe t.1 t.2).checkDividing t.1 t.2
  Safe d t := ¬ (d.observe t.1 t.2).reclaimsZero t.1 t.2
  defined := by
    intro d t safe
    rw [checkDividing_eq, if_neg safe]
    rfl
  undefined := by
    intro d t safe
    rw [checkDividing_eq, if_pos (not_not.mp safe)]
    exact ⟨t.2, rfl⟩

theorem recordLow_low {d : CapitulationDetector} {now : Instant} {price low : ℚ}
    (pending : (d.recordLow now price).pendingLow = some low) :
    low = price ∨ d.pendingLow = some low := by
  unfold recordLow at pending
  split at pending
  · split_ifs at pending
    · exact .inl (Option.some.inj pending).symm
    · exact .inr pending
  · exact .inl (Option.some.inj pending).symm

theorem confirmReclaim_low {d : CapitulationDetector} {now : Instant} {price dumpPct low : ℚ}
    (pending : (d.confirmReclaim now price dumpPct).1.pendingLow = some low) :
    d.pendingLow = some low := by
  unfold confirmReclaim at pending
  split at pending
  · exact pending
  · dsimp only at pending
    split_ifs at pending
    · exact pending
    · exact pending
    · exact pending
    · cases pending

theorem check_low {d : CapitulationDetector} {now : Instant} {price low : ℚ}
    (pending : (d.check now price).1.pendingLow = some low) :
    low = price ∨ d.pendingLow = some low := by
  unfold check at pending
  dsimp only at pending
  split_ifs at pending
  · exact .inr pending
  · exact .inr pending
  · split at pending
    · exact .inr pending
    · split_ifs at pending
      · exact .inr pending
      · exact .inr pending
      · rcases recordLow_low pending with here | before
        · exact .inl here
        · exact .inr ((expirePending_low _ _ _).mp before).2
      · exact .inr ((expirePending_low _ _ _).mp (confirmReclaim_low pending)).2

theorem pendingLow_seen (f : Feed ℚ) (cfg : CapitulationConfig) (n : Nat) {low : ℚ}
    (pending : ((machine cfg).state f.tick n).pendingLow = some low) :
    ∃ i < n, f.value i = low := by
  induction n with
  | zero => cases pending
  | succ n ih =>
    rcases check_low pending with here | before
    · exact ⟨n, n.lt_succ_self, here.symm⟩
    · rw [(observe_pending _ _ _).1] at before
      obtain ⟨i, lt, same⟩ := ih before
      exact ⟨i, lt.trans n.lt_succ_self, same⟩

end CapitulationDetector

end HadesPsTrader.Market
