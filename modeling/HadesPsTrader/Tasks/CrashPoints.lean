/- Module: HadesPsTrader/Tasks/CrashPoints
   source: src/main.rs, src/macd.rs, src/session.rs, src/copy_session.rs
   digest: The arithmetic on unvalidated configuration values, with the panics it can end in. -/

import HadesPsTrader.Interaction.Faults
import HadesPsTrader.Market.Macd
import HadesPsTrader.Market.StartupChecks
import HadesPsTrader.Tasks.CopySession

set_option autoImplicit false
set_option relaxedAutoImplicit false

namespace HadesPsTrader.Tasks

open Interaction Market

/-- A computation without errors of its own: it returns or it panics. -/
abbrev Panicking (α : Type) := Except (Fault Empty) α

/-- `Instant + Duration`: the platform counts the seconds of an instant in an `i64`. -/
def addDuration (now : Instant) (d : Duration) : Panicking Instant :=
  if asSecs (now + d) < 2 ^ 63 then .ok (now + d) else .error .panicked

/-- `Duration * u32`: a duration counts its seconds in a `u64`. -/
def mulDuration (d : Duration) (n : Nat) : Panicking Duration :=
  if asSecs (d * n) < 2 ^ 64 then .ok (d * n) else .error .panicked

inductive WarmupWarning
  | neverSignals
  | shortWindow
  deriving DecidableEq

/-- The warm-up computation of `main` and the warning it gives. -/
def warmupWarning (cfg : Config) : Panicking (Option WarmupWarning) :=
  if 0 < cfg.trading.maxMonitorTime then do
    let warmupBars ← addWithin (2 ^ 32) cfg.macd.slow cfg.macd.signal
    let warmupSecs := min (warmupBars * cfg.macd.candleIntervalSecs) (2 ^ 64 - 1)
    if cfg.trading.maxMonitorTime ≤ warmupSecs then return some .neverSignals
    else do
      let doubled ← mulWithin (2 ^ 64) warmupSecs 2
      if cfg.trading.maxMonitorTime ≤ doubled then return some .shortWindow else return none
  else .ok none

def onTickPanicking (a : CandleAggregator) (price : ℚ) (now : Instant) :
    Panicking (CandleAggregator × Option ℚ) :=
  match a.barStart with
  | none => .ok ({ a with barStart := some now, last := price }, none)
  | some start =>
    let elapsed := durationSince now start
    if elapsed < a.interval then .ok ({ a with last := price }, none)
    else do
      let intervals ← divide elapsed a.interval
      let advance ← mulDuration a.interval (intervals % 2 ^ 32)
      let barStart ← addDuration start advance
      return ({ a with barStart := some barStart, last := price }, some a.last)

/-- A fresh aggregator, fed the ticks of a session. -/
def feedCandles (interval : Duration) (ticks : List (ℚ × Instant)) : Panicking CandleAggregator :=
  ticks.foldlM (fun a t => (onTickPanicking a t.1 t.2).map Prod.fst) { interval := interval }

def emaNew (period : Nat) : Panicking Ema :=
  if 1 ≤ period then .ok (Ema.new period) else .error .panicked

def macdNew (fast slow signal : Nat) : Panicking Macd :=
  if fast < slow then do
    let fast ← emaNew fast
    let slow ← emaNew slow
    let signal ← emaNew signal
    return ⟨fast, slow, signal, none, none⟩
  else .error .panicked

def sessionDeadline (cfg : Config) (sessionStart : Instant) : Panicking (Option Instant) :=
  if cfg.trading.maxMonitorTime = 0 then .ok none
  else (addDuration sessionStart (fromSecs cfg.trading.maxMonitorTime)).map some

def copyDeadline (cc : CopyTradeConfig) (boughtAt : Instant) : Panicking (Option Instant) :=
  if 0 < Copy.effMaxHold cc then
    (addDuration boughtAt (fromSecs (Copy.effMaxHold cc))).map some
  else .ok none

/-- What `Config::load` checks: the types. TOML integers reach up to `i64::MAX`. -/
structure Accepted (cfg : Config) : Prop where
  maxMonitorTime : cfg.trading.maxMonitorTime < 2 ^ 63
  candleIntervalSecs : cfg.macd.candleIntervalSecs < 2 ^ 63
  maxHoldSecs : cfg.copyTrade.maxHoldSecs < 2 ^ 63
  mirrorMaxHoldSecs : cfg.copyTrade.mirrorMaxHoldSecs < 2 ^ 63
  fast : cfg.macd.fast < 2 ^ 32
  slow : cfg.macd.slow < 2 ^ 32
  signal : cfg.macd.signal < 2 ^ 32

/-- None of the computations panics. -/
structure CrashFree (cfg : Config) (sessionStart boughtAt : Instant) (ticks : List (ℚ × Instant)) :
    Prop where
  warmup : warmupWarning cfg ≠ .error .panicked
  candles : feedCandles (fromSecs cfg.macd.candleIntervalSecs) ticks ≠ .error .panicked
  macd : macdNew cfg.macd.fast cfg.macd.slow cfg.macd.signal ≠ .error .panicked
  deadline : sessionDeadline cfg sessionStart ≠ .error .panicked
  copyDeadline : copyDeadline cfg.copyTrade boughtAt ≠ .error .panicked

structure SoundValues (cfg : Config) (sessionStart boughtAt : Instant)
    (ticks : List (ℚ × Instant)) : Prop where
  warmup : 0 < cfg.trading.maxMonitorTime → cfg.macd.slow + cfg.macd.signal < 2 ^ 32
  candles : cfg.macd.candleIntervalSecs = 0 → ticks.length ≤ 1
  macd : 1 ≤ cfg.macd.fast ∧ cfg.macd.fast < cfg.macd.slow ∧ 1 ≤ cfg.macd.signal
  deadline : cfg.trading.maxMonitorTime = 0 ∨
    asSecs sessionStart + cfg.trading.maxMonitorTime < 2 ^ 63
  copyDeadline : Copy.effMaxHold cfg.copyTrade = 0 ∨
    asSecs boughtAt + Copy.effMaxHold cfg.copyTrade < 2 ^ 63

section Sites

variable {cfg : Config}

theorem asSecs_add_fromSecs (now : Instant) (n : Nat) :
    asSecs (now + fromSecs n) = asSecs now + n := by
  rw [asSecs, fromSecs, Nat.add_mul_div_right _ _ (by decide), asSecs]

theorem addDuration_calm_iff (now : Instant) (n : Nat) :
    (addDuration now (fromSecs n)).map some ≠ .error .panicked ↔ asSecs now + n < 2 ^ 63 := by
  rw [addDuration, asSecs_add_fromSecs]
  split
  · next fits => exact ⟨fun _ => fits, fun _ => nofun⟩
  · next large => exact ⟨fun calm => absurd rfl calm, fun fits => absurd fits large⟩

theorem sessionDeadline_calm_iff (sessionStart : Instant) :
    sessionDeadline cfg sessionStart ≠ .error .panicked ↔ cfg.trading.maxMonitorTime = 0 ∨
      asSecs sessionStart + cfg.trading.maxMonitorTime < 2 ^ 63 := by
  rw [sessionDeadline]
  split
  · next off => exact ⟨fun _ => Or.inl off, fun _ => nofun⟩
  · next on =>
    rw [addDuration_calm_iff]
    exact ⟨Or.inr, fun h => h.resolve_left on⟩

theorem copyDeadline_calm_iff {cc : CopyTradeConfig} (boughtAt : Instant) :
    copyDeadline cc boughtAt ≠ .error .panicked ↔ Copy.effMaxHold cc = 0 ∨
      asSecs boughtAt + Copy.effMaxHold cc < 2 ^ 63 := by
  rw [copyDeadline]
  split
  · next on =>
    rw [addDuration_calm_iff]
    exact ⟨Or.inr, fun h => h.resolve_left on.ne'⟩
  · next off => exact ⟨fun _ => Or.inl (Nat.eq_zero_of_not_pos off), fun _ => nofun⟩

theorem warmupWarning_calm_iff (accepted : Accepted cfg) :
    warmupWarning cfg ≠ .error .panicked ↔
      (0 < cfg.trading.maxMonitorTime → cfg.macd.slow + cfg.macd.signal < 2 ^ 32) := by
  rw [warmupWarning]
  split
  · next on =>
    rw [addWithin]
    split
    · next fits =>
      refine ⟨fun _ _ => fits, fun _ => ?_⟩
      rw [ok_bind]
      dsimp only
      split
      · exact nofun
      · next long =>
        -- below the monitoring time, the doubled seconds still fit
        have bound := accepted.maxMonitorTime
        rw [mulWithin, if_pos (by omega), ok_bind]
        split
        · exact nofun
        · exact nofun
    · next large => exact ⟨fun calm => absurd rfl calm, fun fits => absurd (fits on) large⟩
  · next off => exact ⟨fun _ on => absurd on off, fun _ => nofun⟩

theorem warmupWarning_neverSignals (fits : cfg.macd.slow + cfg.macd.signal < 2 ^ 32) :
    warmupWarning cfg = .ok (some .neverSignals) ↔ cfg.macdNeverSignals = true := by
  have bars : cfg.warmupBars = cfg.macd.slow + cfg.macd.signal := Nat.mod_eq_of_lt fits
  rw [warmupWarning, Config.macdNeverSignals, Config.warmupSecs, bars, Bool.and_eq_true,
    decide_eq_true_eq, decide_eq_true_eq]
  by_cases on : 0 < cfg.trading.maxMonitorTime
  · rw [if_pos on, addWithin, if_pos fits, ok_bind]
    dsimp only
    split
    · next never => exact ⟨fun _ => ⟨on, never⟩, fun _ => rfl⟩
    · next later =>
      refine iff_of_false ?_ fun h => later h.2
      intro same
      rw [mulWithin] at same
      split at same
      · rw [ok_bind] at same
        split at same
        · cases same
        · cases same
      · cases same
  · rw [if_neg on]
    refine iff_of_false ?_ fun h => on h.1
    intro same
    cases same

theorem macdNew_eq (fast slow signal : Nat) :
    macdNew fast slow signal =
      if 1 ≤ fast ∧ fast < slow ∧ 1 ≤ signal then .ok (Macd.new fast slow signal)
      else .error .panicked := by
  rw [macdNew]
  by_cases ordered : fast < slow
  · by_cases first : 1 ≤ fast
    · have second : 1 ≤ slow := first.trans ordered.le
      by_cases third : 1 ≤ signal
      · rw [if_pos ordered, if_pos ⟨first, ordered, third⟩, emaNew, if_pos first, ok_bind, emaNew,
          if_pos second, ok_bind, emaNew, if_pos third, ok_bind]
        rfl
      · rw [if_pos ordered, if_neg fun h => third h.2.2, emaNew, if_pos first, ok_bind, emaNew,
          if_pos second, ok_bind, emaNew, if_neg third]
        rfl
    · rw [if_pos ordered, if_neg fun h => first h.1, emaNew, if_neg first]
      rfl
  · rw [if_neg ordered, if_neg fun h => ordered h.2.1]

theorem macdNew_calm_iff (fast slow signal : Nat) :
    macdNew fast slow signal ≠ .error .panicked ↔ 1 ≤ fast ∧ fast < slow ∧ 1 ≤ signal := by
  rw [macdNew_eq]
  split
  · next sound => exact ⟨fun _ => sound, fun _ => nofun⟩
  · next broken => exact ⟨fun calm => absurd rfl calm, fun sound => absurd sound broken⟩

end Sites

section Candles

variable {a : CandleAggregator} {now : Instant} {price : ℚ}

/-- The aggregator stands at a bar that began no later than `now`. -/
def BarBefore (a : CandleAggregator) (now : Instant) : Prop := ∀ start ∈ a.barStart, start ≤ now

theorem boundary_le (interval : Duration) {start now : Instant} (started : start ≤ now) :
    start + interval * (durationSince now start / interval % 2 ^ 32) ≤ now := by
  have whole : interval * (durationSince now start / interval % 2 ^ 32) ≤ now - start :=
    (Nat.mul_le_mul_left _ (Nat.mod_le _ _)).trans (Nat.mul_div_le _ _)
  calc start + interval * (durationSince now start / interval % 2 ^ 32)
      ≤ start + (now - start) := Nat.add_le_add_left whole _
    _ = now := Nat.add_sub_cancel' started

theorem onTickPanicking_eq (positive : 0 < a.interval) (before : BarBefore a now)
    (clock : asSecs now < 2 ^ 63) : onTickPanicking a price now = .ok (a.onTick price now) := by
  rw [onTickPanicking, CandleAggregator.onTick]
  cases bar : a.barStart with
  | none => rfl
  | some start =>
    dsimp only
    split
    · rfl
    · have started : start ≤ now := before start bar
      have within_clock := boundary_le a.interval started
      have advance : asSecs (a.interval * (durationSince now start / a.interval % 2 ^ 32)) <
          2 ^ 64 := by
        have upto := (Nat.le_add_left _ _).trans within_clock
        exact (Nat.div_le_div_right upto).trans_lt (clock.trans (by decide))
      have boundary : asSecs (start + a.interval *
          (durationSince now start / a.interval % 2 ^ 32)) < 2 ^ 63 :=
        (Nat.div_le_div_right within_clock).trans_lt clock
      rw [divide, if_neg positive.ne', ok_bind, mulDuration, if_pos advance, ok_bind, addDuration,
        if_pos boundary, ok_bind]
      rfl

theorem onTick_barBefore (before : BarBefore a now) :
    BarBefore (a.onTick price now).1 now ∧ (a.onTick price now).1.interval = a.interval := by
  rw [CandleAggregator.onTick]
  cases bar : a.barStart with
  | none =>
    refine ⟨?_, rfl⟩
    intro start same
    cases same
    exact le_rfl
  | some start =>
    have started : start ≤ now := before start bar
    dsimp only
    split
    · refine ⟨?_, rfl⟩
      intro start' same
      cases same
      exact started
    · refine ⟨?_, rfl⟩
      intro start' same
      cases same
      exact boundary_le a.interval started

theorem feed_calm (positive : 0 < a.interval) {ticks : List (ℚ × Instant)}
    (ordered : ticks.Pairwise fun s t => s.2 ≤ t.2) (before : ∀ t ∈ ticks, BarBefore a t.2)
    (clock : ∀ t ∈ ticks, asSecs t.2 < 2 ^ 63) :
    ticks.foldlM (fun a t => (onTickPanicking a t.1 t.2).map Prod.fst) a ≠ .error .panicked := by
  induction ticks generalizing a with
  | nil => exact nofun
  | cons t ticks ih =>
    obtain ⟨later, ordered⟩ := List.pairwise_cons.mp ordered
    obtain ⟨here, _⟩ := List.forall_mem_cons.mp before
    obtain ⟨valid, clock⟩ := List.forall_mem_cons.mp clock
    have moved : BarBefore (a.onTick t.1 t.2).1 t.2 ∧ (a.onTick t.1 t.2).1.interval = a.interval :=
      onTick_barBefore here
    obtain ⟨barBefore, interval⟩ := moved
    rw [List.foldlM_cons, onTickPanicking_eq positive here valid]
    apply ih (a := (a.onTick t.1 t.2).1) (by rw [interval]; exact positive) ordered ?_ clock
    intro s mem start same
    exact (barBefore start same).trans (later s mem)

theorem feedCandles_zero (s t : ℚ × Instant) (ticks : List (ℚ × Instant)) :
    feedCandles 0 (s :: t :: ticks) = .error .panicked := by
  have first : (onTickPanicking { interval := 0 } s.1 s.2).map Prod.fst =
      (.ok ⟨0, some s.2, s.1⟩ : Panicking CandleAggregator) := rfl
  have second : onTickPanicking ⟨0, some s.2, s.1⟩ t.1 t.2 = .error .panicked := by
    rw [onTickPanicking]
    dsimp only
    rw [if_neg (Nat.not_lt_zero _), divide, if_pos rfl]
    rfl
  rw [feedCandles, List.foldlM_cons, first, ok_bind, List.foldlM_cons, second]
  rfl

theorem feedCandles_calm_iff {interval : Nat} {ticks : List (ℚ × Instant)}
    (ordered : ticks.Pairwise fun s t => s.2 ≤ t.2) (clock : ∀ t ∈ ticks, asSecs t.2 < 2 ^ 63) :
    feedCandles (fromSecs interval) ticks ≠ .error .panicked ↔
      (interval = 0 → ticks.length ≤ 1) := by
  constructor
  · rintro calm rfl
    by_contra several
    match ticks, several with
    | s :: t :: rest, _ => exact calm (feedCandles_zero s t rest)
    | [], several => exact several (Nat.zero_le _)
    | [s], several => exact several le_rfl
  · intro few
    rcases Nat.eq_zero_or_pos interval with zero | positive
    · match ticks, few zero with
      | [], _ => exact nofun
      | [s], _ => exact nofun
    · apply feed_calm (Nat.mul_pos positive (by decide)) ordered ?_ clock
      intro t _ start same
      cases same

end Candles

/-- Whether anything panics is decided by the periods, the candle interval and the two deadlines. -/
theorem crashFree_iff {cfg : Config} (accepted : Accepted cfg) (sessionStart boughtAt : Instant)
    {ticks : List (ℚ × Instant)} (ordered : ticks.Pairwise fun s t => s.2 ≤ t.2)
    (clock : ∀ t ∈ ticks, asSecs t.2 < 2 ^ 63) :
    CrashFree cfg sessionStart boughtAt ticks ↔ SoundValues cfg sessionStart boughtAt ticks := by
  constructor
  · rintro ⟨warmup, candles, macd, deadline, copy⟩
    exact ⟨(warmupWarning_calm_iff accepted).mp warmup,
      (feedCandles_calm_iff ordered clock).mp candles, (macdNew_calm_iff _ _ _).mp macd,
      (sessionDeadline_calm_iff sessionStart).mp deadline, (copyDeadline_calm_iff boughtAt).mp copy⟩
  · rintro ⟨warmup, candles, macd, deadline, copy⟩
    exact ⟨(warmupWarning_calm_iff accepted).mpr warmup,
      (feedCandles_calm_iff ordered clock).mpr candles, (macdNew_calm_iff _ _ _).mpr macd,
      (sessionDeadline_calm_iff sessionStart).mpr deadline,
      (copyDeadline_calm_iff boughtAt).mpr copy⟩

/-- An hour of monitoring with candles of a minute. -/
def minuteConfig : Config where
  trading := ⟨10, 1, 0, 40, 25, 3, 2, 2, 3600, 900, "20:6"⟩
  macd := ⟨60, 12, 26, 9, 60⟩

theorem minuteConfig_accepted : Accepted minuteConfig := by
  constructor <;> decide

theorem crashFree_minute : CrashFree minuteConfig 0 0 [(1, 0), (2, fromSecs 61)] := by
  have ordered : [((1 : ℚ), (0 : Instant)), (2, fromSecs 61)].Pairwise fun s t => s.2 ≤ t.2 := by
    simp
  have clock : ∀ t ∈ [((1 : ℚ), (0 : Instant)), (2, fromSecs 61)], asSecs t.2 < 2 ^ 63 := by
    decide
  apply (crashFree_iff minuteConfig_accepted 0 0 ordered clock).mpr
  exact ⟨by decide, by decide, by decide, Or.inr (by decide), Or.inr (by decide)⟩

/-- The same with an interval of zero. -/
def zeroIntervalConfig : Config :=
  { minuteConfig with macd := { minuteConfig.macd with candleIntervalSecs := 0 } }

theorem crashFree_fails_zeroInterval :
    Accepted zeroIntervalConfig ∧ ¬ CrashFree zeroIntervalConfig 0 0 [(1, 0), (2, fromSecs 1)] := by
  constructor
  · constructor <;> decide
  · intro free
    have interval : fromSecs zeroIntervalConfig.macd.candleIntervalSecs = 0 := Nat.zero_mul _
    have candles := free.candles
    rw [interval] at candles
    exact candles (feedCandles_zero _ _ _)

end HadesPsTrader.Tasks
