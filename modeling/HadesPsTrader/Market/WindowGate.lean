/- Module: HadesPsTrader/Market/WindowGate
   source: src/capitulation.rs, src/dip_buy.rs
   digest: The window-full gate of both detectors, and when it shuts after the warm-up. -/

import HadesPsTrader.Market.CapitulationRuns
import HadesPsTrader.Market.DipBuyRuns

set_option autoImplicit false
set_option relaxedAutoImplicit false

open HadesPsTrader.Interaction

namespace HadesPsTrader.Market

/-- The oldest tick held is almost as old as the window: `now - oldest_ts >= window - 1s`. -/
def windowFull {α : Type} (window : Duration) (now : Instant) (ticks : List (Instant × α)) : Bool :=
  ticks.head?.any fun oldest => window - fromSecs 1 ≤ durationSince now oldest.1

namespace CapitulationDetector

/-- The gate as `check` takes it, on evicted ticks. -/
def windowFull (d : CapitulationDetector) (now : Instant) : Bool :=
  Market.windowFull d.window now (evictOld d.window now d.ticks)

theorem judges_eq_and_windowFull {d : CapitulationDetector} {now : Instant}
    (fresh : evictOld d.window now d.ticks = d.ticks) :
    d.judges now = (d.enabled && (d.lastFire.all fun t => d.debounce ≤ durationSince now t) &&
      (d.windowFull now && d.ticks.head?.any fun oldest => 0 < oldest.2)) := by
  rw [judges, windowFull, Market.windowFull, fresh]
  -- the literal number of nanoseconds stays out of the comparison below
  obtain ⟨needed, fixed⟩ : ∃ needed, d.window - fromSecs 1 = needed := ⟨_, rfl⟩
  rw [fixed]
  cases d.ticks.head? with
  | none => rfl
  | some oldest => simp only [Option.any_some]

theorem check_of_not_windowFull {d : CapitulationDetector} {now : Instant}
    (fresh : evictOld d.window now d.ticks = d.ticks) (shut : d.windowFull now = false)
    (price : ℚ) : d.check now price = (d, none) := by
  have idle : d.judges now = false := by
    rw [judges_eq_and_windowFull fresh, shut, Bool.false_and, Bool.and_false]
  rcases check_cases fresh price with ⟨-, same⟩ | ⟨judged, -⟩ | ⟨judged, -⟩
  · exact same
  · rw [idle] at judged
    cases judged
  · rw [idle] at judged
    cases judged

def fed (cfg : CapitulationConfig) (f : Feed ℚ) (n : Nat) : CapitulationDetector :=
  ((machine cfg).state f.tick n).observe (f.time n) (f.value n)

theorem fed_windowFull {cfg : CapitulationConfig} (on : cfg.enabled = true) (f : Feed ℚ)
    (n : Nat) : (fed cfg f n).windowFull (f.time n) =
      Market.windowFull (fromSecs cfg.windowSecs) (f.time n)
        (f.within (fromSecs cfg.windowSecs) n) := by
  obtain ⟨settings, stored⟩ := state_held f cfg n
  obtain ⟨kept, held⟩ := observe_held settings stored
  rw [if_pos on] at held
  have width : (fed cfg f n).window = fromSecs cfg.windowSecs :=
    congrArg CapitulationDetector.window kept
  have enabled : (fed cfg f n).enabled = true :=
    (congrArg CapitulationDetector.enabled kept).trans on
  have fresh : evictOld (fed cfg f n).window (f.time n) (fed cfg f n).ticks =
      (fed cfg f n).ticks := by
    apply observe_fresh
    intro off
    rw [fed, observe_enabled] at enabled
    rw [enabled] at off
    cases off
  rw [windowFull, fresh, width]
  exact congrArg (Market.windowFull _ _) held

end CapitulationDetector

namespace DipBuyDetector

def windowFull (d : DipBuyDetector) (now : Instant) : Bool :=
  Market.windowFull d.window now d.ticks

theorem signal_of_not_windowFull {d : DipBuyDetector} {now : Instant}
    (shut : d.windowFull now = false) : d.signal now = none := by
  rw [windowFull, Market.windowFull] at shut
  unfold signal
  split_ifs
  · rfl
  cases first : d.ticks.head? with
  | none => rfl
  | some oldest =>
    rw [first, Option.any_some, decide_eq_false_iff_not, not_le] at shut
    cases d.ticks.getLast? with
    | none => rfl
    | some entry => exact if_pos shut

def fed (cfg : DipBuyConfig) (sessionStart : Instant) (f : Feed DipTick) (n : Nat) :
    DipBuyDetector :=
  ((machine cfg sessionStart).state f.tick n).observe (f.time n) (f.value n).price
    (f.value n).poolSol

theorem fed_windowFull {cfg : DipBuyConfig} (on : cfg.enabled = true) (sessionStart : Instant)
    (f : Feed DipTick) (n : Nat) : (fed cfg sessionStart f n).windowFull (f.time n) =
      Market.windowFull (fromSecs cfg.windowSecs) (f.time n)
        (f.within (fromSecs cfg.windowSecs) n) := by
  rw [fed, state_held, observe_held, if_pos on]
  rfl

end DipBuyDetector

namespace Feed

variable {α : Type} (f : Feed α) (window : Duration)

theorem within_eq_range (n : Nat) : ∃ first ≤ n,
    f.within window n = (List.range' first (n + 1 - first)).map f.tick ∧
      f.time n - f.time first ≤ window ∧ ∀ i < first, window < f.time n - f.time i := by
  have reached : ∃ i, f.time n - f.time i ≤ window := by
    refine ⟨n, ?_⟩
    rw [Nat.sub_self]
    exact Nat.zero_le _
  obtain ⟨first, young, least⟩ :
      ∃ first, f.time n - f.time first ≤ window ∧ ∀ i < first, window < f.time n - f.time i :=
    ⟨Nat.find reached, Nat.find_spec reached, fun i lt => not_le.mp (Nat.find_min reached lt)⟩
  have le : first ≤ n := by
    by_contra after
    have newest := least n (not_le.mp after)
    rw [Nat.sub_self] at newest
    exact Nat.not_lt_zero _ newest
  refine ⟨first, le, ?_, young, least⟩
  have split : List.range (n + 1) = List.range' 0 first ++ List.range' first (n + 1 - first) := by
    rw [List.range_eq_range']
    have append := @List.range'_append_1 0 first (n + 1 - first)
    rw [Nat.zero_add, Nat.add_sub_cancel' (le.trans n.le_succ)] at append
    exact append.symm
  have dropped : ((List.range' 0 first).map f.tick).filter
      (fun t => f.time n - t.1 ≤ window) = [] := by
    rw [List.filter_eq_nil_iff]
    intro t mem young
    obtain ⟨i, here, rfl⟩ := List.mem_map.mp mem
    have lt : i < first := by
      have bounds := List.mem_range'_1.mp here
      omega
    exact absurd (least i lt) (not_lt.mpr (of_decide_eq_true young))
  have kept : ((List.range' first (n + 1 - first)).map f.tick).filter
      (fun t => f.time n - t.1 ≤ window) = (List.range' first (n + 1 - first)).map f.tick := by
    rw [List.filter_eq_self]
    intro t mem
    obtain ⟨i, here, rfl⟩ := List.mem_map.mp mem
    have aged : f.time first ≤ f.time i := f.time_mono (List.mem_range'_1.mp here).1
    exact decide_eq_true ((Nat.sub_le_sub_left aged _).trans young)
  rw [within, before, split, List.map_append, List.filter_append, dropped, kept, List.nil_append]

/-- The session is no longer freshly started: a tick as old as the window has been fed. -/
def Aged (n : Nat) : Prop := ∃ i ≤ n, window ≤ f.time n - f.time i

/-- The reading of tick `n` falls where the window has lost tick `j` and the tick after it is not
yet almost as old as the window, though enough ticks follow. -/
structure Straddles (least j n : Nat) : Prop where
  enough : j + least ≤ n
  lost : window < f.time n - f.time j
  young : f.time n - f.time (j + 1) < window - fromSecs 1

/-- At every tick of a session that is not new and holds enough ticks in its window, the gate is
open. -/
def OnlyBlocksWarmUp (least : Nat) (gate : Nat → Bool) : Prop :=
  ∀ n, f.Aged window n → least ≤ (f.within window n).length → gate n

variable {f window}

theorem within_length {first n : Nat}
    (range : f.within window n = (List.range' first (n + 1 - first)).map f.tick) :
    (f.within window n).length = n + 1 - first := by
  rw [range, List.length_map, List.length_range']

theorem windowFull_iff {first n : Nat} (le : first ≤ n)
    (range : f.within window n = (List.range' first (n + 1 - first)).map f.tick) :
    windowFull window (f.time n) (f.within window n) ↔
      window - fromSecs 1 ≤ f.time n - f.time first := by
  have count : n + 1 - first = n - first + 1 := by omega
  rw [windowFull, range, count, List.range'_succ, List.map_cons, List.head?_cons, Option.any_some,
    decide_eq_true_eq]
  rfl

/-- On a session that is not new and a window with enough ticks, the gate is open at every reading
exactly when no reading straddles two ticks. -/
theorem onlyBlocksWarmUp_iff {least : Nat} :
    f.OnlyBlocksWarmUp window least
        (fun n => windowFull window (f.time n) (f.within window n)) ↔
      ∀ j n, ¬ f.Straddles window least j n := by
  constructor
  · rintro opens j n ⟨enough, lost, young⟩
    obtain ⟨first, le, range, held, dropped⟩ := f.within_eq_range window n
    have after : j < first := by
      by_contra before
      have older : f.time first ≤ f.time j := f.time_mono (not_lt.mp before)
      exact absurd lost (not_lt.mpr ((Nat.sub_le_sub_left older _).trans held))
    have next : first ≤ j + 1 := by
      by_contra before
      have older := dropped (j + 1) (not_le.mp before)
      exact absurd (young.trans_le (Nat.sub_le _ _)) (not_lt.mpr older.le)
    have exact_first : first = j + 1 := by omega
    subst exact_first
    have aged : f.Aged window n := ⟨j, by omega, lost.le⟩
    have count : least ≤ (f.within window n).length := by
      rw [within_length range]
      omega
    exact absurd young (not_lt.mpr ((windowFull_iff le range).mp (opens n aged count)))
  · rintro clear n ⟨i, before, old⟩ count
    obtain ⟨first, le, range, held, dropped⟩ := f.within_eq_range window n
    rw [within_length range] at count
    rw [windowFull_iff le range]
    cases first with
    | zero =>
      have oldest : f.time 0 ≤ f.time i := f.time_mono i.zero_le
      exact (Nat.sub_le _ _).trans (old.trans (Nat.sub_le_sub_left oldest _))
    | succ j =>
      by_contra young
      exact clear j n ⟨by omega, dropped j j.lt_succ_self, not_le.mp young⟩

theorem not_straddles_of_steady (steady : ∀ k, f.time (k + 1) - f.time k ≤ fromSecs 1)
    (least j n : Nat) : ¬ f.Straddles window least j n := by
  rintro ⟨-, lost, young⟩
  have apart : f.time n - f.time j ≤
      (f.time n - f.time (j + 1)) + (f.time (j + 1) - f.time j) := tsub_le_tsub_add_tsub
  have early : (f.time n - f.time (j + 1)) + fromSecs 1 < window := Nat.add_lt_of_lt_sub young
  have within_window : f.time n - f.time j < window :=
    (apart.trans (Nat.add_le_add_left (steady j) _)).trans_lt early
  exact absurd lost (not_lt.mpr within_window.le)

def slowRead (a : α) : Feed α where
  tick i := (if i = 0 then 0 else fromMillis (2000 + 200 * i), a)
  ordered := by
    intro i j le
    dsimp only
    by_cases first : i = 0
    · rw [if_pos first]
      exact Nat.zero_le _
    · have later : j ≠ 0 := by omega
      rw [if_neg first, if_neg later]
      exact Nat.mul_le_mul_right _ (by omega)

theorem slowRead_straddles (a : α) {least : Nat} (few : least ≤ 291) :
    (slowRead a).Straddles (fromSecs 60) least 0 291 := by
  have late (i : Nat) : (slowRead a).time (i + 1) = fromMillis (2000 + 200 * (i + 1)) := by
    rw [time, slowRead]
    dsimp only
    rw [if_neg i.succ_ne_zero]
  have first : (slowRead a).time 0 = 0 := by
    rw [time, slowRead]
    dsimp only
    rw [if_pos rfl]
  refine ⟨by omega, ?_, ?_⟩
  · rw [late, first]
    decide
  · rw [late, late]
    decide

end Feed

open CapitulationDetector DipBuyDetector

/-- The window-full gates only block the warm-up exactly when no reading straddles two ticks. -/
theorem window_gates_only_block_warm_up_iff (capitulation : CapitulationConfig)
    (dip : DipBuyConfig) (capitulation_on : capitulation.enabled = true)
    (dip_on : dip.enabled = true) (sessionStart : Instant) (prices : Feed ℚ)
    (ticks : Feed DipTick) :
    (prices.OnlyBlocksWarmUp (fromSecs capitulation.windowSecs) Capitulation.minTicksForFire
        (fun n => (CapitulationDetector.fed capitulation prices n).windowFull (prices.time n)) ↔
      ∀ j n, ¬ prices.Straddles (fromSecs capitulation.windowSecs) Capitulation.minTicksForFire
        j n) ∧
    (ticks.OnlyBlocksWarmUp (fromSecs dip.windowSecs) DipBuy.minTicksForFire
        (fun n => (DipBuyDetector.fed dip sessionStart ticks n).windowFull (ticks.time n)) ↔
      ∀ j n, ¬ ticks.Straddles (fromSecs dip.windowSecs) DipBuy.minTicksForFire j n) := by
  constructor
  · simp only [CapitulationDetector.fed_windowFull capitulation_on]
    exact Feed.onlyBlocksWarmUp_iff
  · simp only [DipBuyDetector.fed_windowFull dip_on]
    exact Feed.onlyBlocksWarmUp_iff

theorem window_gates_on_slow_reads :
    ((Feed.slowRead (1 : ℚ)).OnlyBlocksWarmUp (fromSecs 60) 10
        (fun n => (CapitulationDetector.fed { enabled := true } (Feed.slowRead 1) n).windowFull
          ((Feed.slowRead (1 : ℚ)).time n)) ↔
      ∀ j n, ¬ (Feed.slowRead (1 : ℚ)).Straddles (fromSecs 60) 10 j n) ∧
    ((Feed.slowRead (⟨1, 50⟩ : DipTick)).OnlyBlocksWarmUp (fromSecs 60) 5
        (fun n => (DipBuyDetector.fed { enabled := true } 0 (Feed.slowRead ⟨1, 50⟩) n).windowFull
          ((Feed.slowRead (⟨1, 50⟩ : DipTick)).time n)) ↔
      ∀ j n, ¬ (Feed.slowRead (⟨1, 50⟩ : DipTick)).Straddles (fromSecs 60) 5 j n) :=
  window_gates_only_block_warm_up_iff { enabled := true } { enabled := true } rfl rfl 0
    (Feed.slowRead 1) (Feed.slowRead ⟨1, 50⟩)

/-- With the default window, both gates are shut sixty seconds into the session although the
window holds hundreds of ticks. -/
theorem slow_read_shuts_window_gates :
    (¬ ∀ cfg : CapitulationConfig, cfg.enabled = true → 1 ≤ cfg.windowSecs → ∀ f : Feed ℚ,
      f.OnlyBlocksWarmUp (fromSecs cfg.windowSecs) Capitulation.minTicksForFire
        fun n => (CapitulationDetector.fed cfg f n).windowFull (f.time n)) ∧
    ¬ ∀ (cfg : DipBuyConfig) (sessionStart : Instant), cfg.enabled = true → 1 ≤ cfg.windowSecs →
      ∀ f : Feed DipTick, f.OnlyBlocksWarmUp (fromSecs cfg.windowSecs) DipBuy.minTicksForFire
        fun n => (DipBuyDetector.fed cfg sessionStart f n).windowFull (f.time n) := by
  constructor
  · intro opens
    have claimed := opens { enabled := true } rfl (by decide) (Feed.slowRead 1)
    have on : ({ enabled := true } : CapitulationConfig).enabled = true := rfl
    simp only [CapitulationDetector.fed_windowFull on] at claimed
    have straddles := Feed.slowRead_straddles (1 : ℚ)
      (by decide : Capitulation.minTicksForFire ≤ 291)
    exact Feed.onlyBlocksWarmUp_iff.mp claimed 0 291 straddles
  · intro opens
    have claimed := opens { enabled := true } 0 rfl (by decide) (Feed.slowRead ⟨1, 50⟩)
    have on : ({ enabled := true } : DipBuyConfig).enabled = true := rfl
    simp only [DipBuyDetector.fed_windowFull on] at claimed
    have straddles := Feed.slowRead_straddles (⟨1, 50⟩ : DipTick)
      (by decide : DipBuy.minTicksForFire ≤ 291)
    exact Feed.onlyBlocksWarmUp_iff.mp claimed 0 291 straddles

end HadesPsTrader.Market
