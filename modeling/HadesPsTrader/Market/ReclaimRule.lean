/- Module: HadesPsTrader/Market/ReclaimRule
   source: src/capitulation.rs
   digest: What a reclaim fire rests on, and when the low and the confirmation are kept honestly. -/

import HadesPsTrader.Market.CapitulationRuns

set_option autoImplicit false
set_option relaxedAutoImplicit false

open HadesPsTrader.Interaction

namespace HadesPsTrader.Market

namespace CapitulationDetector

theorem lastFire_alarm (cfg : CapitulationConfig) :
    LastAlarm (machine cfg) Prod.fst CapitulationDetector.lastFire := by
  have stamped (d : CapitulationDetector) (t : Instant × ℚ) :
      ((machine cfg).step d t).1.lastFire =
        (((machine cfg).step d t).2.map fun _ => t.1).or d.lastFire := by
    obtain ⟨-, -, -, same⟩ := d.observe_pending t.1 t.2
    by_cases on : d.enabled = true
    · have fresh := observe_fresh (d := d) (fun off => absurd (on.symm.trans off) (by decide))
        t.1 t.2
      obtain ⟨-, fired⟩ := check_memory fresh t.2
      rw [same] at fired
      exact fired
    · have idle : (machine cfg).step d t = (d, none) := by
        have off : d.enabled = false := Bool.eq_false_iff.mpr on
        simp [machine, observe, check, off]
      rw [idle]
      rfl
  constructor
  · rfl
  · intro d t quiet
    rw [stamped, quiet]
    rfl
  · intro d t signal fired
    rw [stamped, fired]
    rfl

end CapitulationDetector

namespace PriceFeed

theorem listed_pos {prices : List ℚ} (listed : ∀ p ∈ prices, 0 < p) (n : Nat) :
    0 < prices.getD n 1 := by
  rw [List.getD_eq_getElem?_getD]
  cases here : prices[n]? with
  | none => exact one_pos
  | some p => exact listed p (List.mem_of_getElem? here)

theorem seconds_mono : Monotone fromSecs := by
  intro i j le
  exact Nat.mul_le_mul_right 1000000000 le

/-- One tick a second: the listed prices, and 1 from then on. -/
def everySecond (prices : List ℚ) (listed : ∀ p ∈ prices, 0 < p) : PriceFeed where
  tick n := (fromSecs n, prices.getD n 1)
  ordered := seconds_mono
  positive := listed_pos listed

/-- A dump counts from 50 %, a reclaim from 10 % held for 3 s, over a window of 10 s. -/
def quickReclaim : CapitulationConfig where
  enabled := true
  dipPct := 50
  windowSecs := 10
  reclaimPct := 10
  pendingExpireSecs := 30
  reclaimConfirmSecs := 3
  debounceSecs := 60

variable {f : PriceFeed} {cfg : CapitulationConfig} {n : Nat}

/-- The detector stands at a fire that reports `low`. -/
structure Completes (f : PriceFeed) (cfg : CapitulationConfig) (n : Nat) (low : ℚ) : Prop where
  pending : (f.detector cfg n).pendingLow = some low
  judged : (f.observed cfg n).judges (f.time n)
  calm : (f.observed cfg n).dumped (f.value n) = false
  live : (f.observed cfg n).expired (f.time n) = false
  reached : low * (1 + cfg.reclaimPct / 100) ≤ f.value n
  enough : Capitulation.minTicksForFire ≤ (f.observed cfg n).ticks.length
  confirmed : (f.observed cfg n).due (f.time n)

theorem completes_of_fire {signal : ReclaimSignal} (fired : f.verdict cfg n = some signal) :
    f.Completes cfg n signal.low := by
  have step := f.moves cfg n
  rw [fired] at step
  generalize before : (f.detector cfg n).phase = p at step
  generalize (f.detector cfg (n + 1)).phase = q at step
  cases step with
  | fires judged calm live reached enough confirmed =>
    rw [f.observed_threshold] at reached
    obtain ⟨pending, -, -⟩ := (f.coherent cfg n).pending_iff.mp before
    exact ⟨pending, judged, calm, live, reached, enough, confirmed⟩

theorem Completes.fire {low : ℚ} (h : f.Completes cfg n low) :
    ∃ signal, f.verdict cfg n = some signal ∧ signal.low = low := by
  have step := f.moves cfg n
  have reached : (f.observed cfg n).threshold low ≤ f.value n := by
    rw [f.observed_threshold]
    exact h.reached
  rcases (f.coherent cfg n).cases with ⟨idle, -⟩ | ⟨low', since, hl, -, -, before⟩
  · rw [h.pending] at idle
    cases idle
  have same : low' = low := Option.some.inj (hl.symm.trans h.pending)
  rw [before, same] at step
  generalize (f.detector cfg (n + 1)).phase = q at step
  generalize (f.detector cfg n).reclaimConfirmStarted = c at step
  cases verdict : f.verdict cfg n with
  | some signal =>
    rw [verdict] at step
    cases step with
    | fires judged calm live reached enough confirmed => exact ⟨signal, rfl, rfl⟩
  | none =>
    exfalso
    rw [verdict] at step
    cases step with
    | ignored shut => simp [h.judged] at shut
    | begins judged dump idle => simp [h.calm] at dump
    | deepens judged dump live lower => simp [h.calm] at dump
    | holds judged dump live above => simp [h.calm] at dump
    | rests judged calm idle => simp [h.live] at idle
    | relapses judged calm live below => exact absurd reached (not_le.mpr below)
    | waits judged calm live reached sparse => exact absurd h.enough (not_le.mpr sparse)
    | confirms judged calm live reached enough early => simp [h.confirmed] at early

section Dump

/-- What a fire at tick `n` rests on. -/
structure RealBounce (f : PriceFeed) (cfg : CapitulationConfig) (n : Nat)
    (signal : ReclaimSignal) : Prop where
  low : (f.detector cfg n).pendingLow = some signal.low
  dump : ∃ d < n, f.time n - f.time d ≤ fromSecs cfg.pendingExpireSecs ∧
    (∃ oldest ∈ (f.within (fromSecs cfg.windowSecs) d).head?,
      f.value d ≤ oldest.2 * (1 - cfg.dipPct / 100)) ∧
    ((f.detector cfg d).pendingLow = none ∨ ∃ started ∈ (f.detector cfg d).pendingStarted,
      fromSecs cfg.pendingExpireSecs < f.time d - started) ∧
    (∀ i, d < i → i ≤ n → (f.detector cfg i).pendingStarted = some (f.time d)) ∧
    IsLeast (f.seen (fun i => d ≤ i ∧ f.stageOne cfg i) n) signal.low ∧
    ∃ c, d < c ∧ c ≤ n ∧ fromSecs cfg.reclaimConfirmSecs ≤ f.time n - f.time c ∧
      signal.low * (1 + cfg.reclaimPct / 100) ≤ f.value c
  bounce : signal.low * (1 + cfg.reclaimPct / 100) ≤ f.value n
  calm : ∃ oldest ∈ (f.within (fromSecs cfg.windowSecs) n).head?,
    oldest.2 * (1 - cfg.dipPct / 100) < f.value n
  enough : 10 ≤ (f.within (fromSecs cfg.windowSecs) n).length
  debounced : ∀ k < n, (f.verdict cfg k).isSome →
    fromSecs cfg.debounceSecs ≤ f.time n - f.time k
  cleared : (f.detector cfg (n + 1)).pendingLow = none ∧
    (f.detector cfg (n + 1)).pendingStarted = none ∧
    (f.detector cfg (n + 1)).reclaimConfirmStarted = none

theorem judged_oldest (judged : (f.observed cfg n).judges (f.time n)) :
    (f.observed cfg n).ticks = f.within (fromSecs cfg.windowSecs) n ∧
      ∃ oldest ∈ (f.within (fromSecs cfg.windowSecs) n).head?, 0 < oldest.2 ∧
        ((f.observed cfg n).dumped (f.value n) ↔
          f.value n ≤ oldest.2 * (1 - cfg.dipPct / 100)) := by
  obtain ⟨settings, ticks, -⟩ := (f.sound cfg n).observed
  have dip : (f.observed cfg n).dipPct = cfg.dipPct :=
    congrArg CapitulationDetector.dipPct settings
  have on : (f.observed cfg n).enabled = cfg.enabled :=
    congrArg CapitulationDetector.enabled settings
  rw [CapitulationDetector.judges, Bool.and_eq_true, Bool.and_eq_true] at judged
  obtain ⟨⟨enabled, -⟩, full⟩ := judged
  rw [← on, enabled, if_pos rfl] at ticks
  have held : (f.observed cfg n).ticks = f.within (fromSecs cfg.windowSecs) n := ticks
  rw [held, Option.any_eq_true] at full
  obtain ⟨oldest, first, good⟩ := full
  rw [Bool.and_eq_true] at good
  have positive : 0 < oldest.2 := of_decide_eq_true good.2
  refine ⟨held, oldest, first, positive, ?_⟩
  have bound : oldest.2 * (1 - cfg.dipPct / 100) =
      (1 - cfg.dipPct / 100) * oldest.2 := mul_comm _ _
  rw [CapitulationDetector.dumped, held, first, Option.any_some, decide_eq_true_eq, dip, bound,
    ← div_le_iff₀ positive]
  constructor
  · intro low
    linarith
  · intro low
    linarith

theorem judged_debounced (judged : (f.observed cfg n).judges (f.time n)) :
    ∀ k < n, (f.verdict cfg k).isSome → fromSecs cfg.debounceSecs ≤ f.time n - f.time k := by
  have settings := (f.sound cfg n).observed.1
  have same : (f.observed cfg n).debounce = fromSecs cfg.debounceSecs :=
    congrArg CapitulationDetector.debounce settings
  obtain ⟨-, -, -, last⟩ := (f.detector cfg n).observe_pending (f.time n) (f.value n)
  rw [CapitulationDetector.judges, Bool.and_eq_true, Bool.and_eq_true] at judged
  obtain ⟨⟨-, passed⟩, -⟩ := judged
  rw [same] at passed
  apply ((CapitulationDetector.lastFire_alarm cfg).forall_iff f.ordered
    (P := fun t => fromSecs cfg.debounceSecs ≤ f.time n - t) ?_ n).mp
  · intro t mem
    have kept : (f.observed cfg n).lastFire = some t := last.trans mem
    rw [kept, Option.all_some, decide_eq_true_eq] at passed
    exact passed
  · intro s t le later
    exact later.trans (Nat.sub_le_sub_left le (f.time n))

theorem phase_after_fire {signal : ReclaimSignal} (fired : f.verdict cfg n = some signal) :
    (f.detector cfg (n + 1)).phase = .quiet := by
  have step := f.moves cfg n
  rw [fired] at step
  generalize (f.detector cfg n).phase = p at step
  generalize (f.detector cfg (n + 1)).phase = q at step ⊢
  cases step with
  | fires => rfl

theorem Begins.dump (h : f.Begins cfg n) :
    (∃ oldest ∈ (f.within (fromSecs cfg.windowSecs) n).head?,
        f.value n ≤ oldest.2 * (1 - cfg.dipPct / 100)) ∧
      ((f.detector cfg n).pendingLow = none ∨ ∃ started ∈ (f.detector cfg n).pendingStarted,
        fromSecs cfg.pendingExpireSecs < f.time n - started) := by
  obtain ⟨one, idle⟩ := h
  rw [stageOne, Bool.and_eq_true] at one
  obtain ⟨-, oldest, first, -, dumped⟩ := judged_oldest one.1
  refine ⟨⟨oldest, first, dumped.mp one.2⟩, ?_⟩
  rcases idle with quiet | old
  · exact .inl ((f.coherent cfg n).quiet_iff.mp quiet)
  · exact .inr ((f.observed_expired cfg n).mp old)

/-- A fire comes after a real dump and a confirmed bounce off its low. -/
theorem fires_after_bounce {signal : ReclaimSignal} (fired : f.verdict cfg n = some signal) :
    f.RealBounce cfg n signal := by
  have done := completes_of_fire fired
  have over_dump := (f.coherent cfg (n + 1)).cases
  rw [phase_after_fire fired] at over_dump
  obtain ⟨held, oldest, first, -, dumped⟩ := judged_oldest done.judged
  refine ⟨done.pending, ?_, done.reached, ?_, ?_, judged_debounced done.judged, ?_⟩
  · rcases (f.coherent cfg n).cases with ⟨idle, -⟩ | ⟨low, since, hl, hs, -, before⟩
    · rw [done.pending] at idle
      cases idle
    have same : low = signal.low := Option.some.inj (hl.symm.trans done.pending)
    rw [same] at before
    obtain ⟨d, w⟩ := f.watches cfg n before
    have young : f.time n - f.time d ≤ fromSecs cfg.pendingExpireSecs := by
      have live := done.live
      rw [Bool.eq_false_iff, Ne, f.observed_expired] at live
      by_contra old
      exact live ⟨since, hs, by rw [← w.stamp]; exact not_le.mp old⟩
    obtain ⟨dump, idle⟩ := w.begins.dump
    refine ⟨d, w.lt, young, dump, idle, ?_, w.least, ?_⟩
    · rw [w.stamp]
      exact w.kept
    · have due := (f.observed_due cfg n).mp done.confirmed
      cases running : (f.detector cfg n).reclaimConfirmStarted with
      | none =>
        rw [running, Option.getD_none] at due
        exact ⟨n, w.lt, le_refl n, due, done.reached⟩
      | some s =>
        rw [running, Option.getD_some] at due
        obtain ⟨k, after, lt, stamp, reached⟩ := w.reclaimed s running
        rw [← stamp] at due
        exact ⟨k, after, lt.le, due, reached⟩
  · refine ⟨oldest, first, ?_⟩
    by_contra low
    have dump := dumped.mpr (not_lt.mp low)
    rw [done.calm] at dump
    cases dump
  · rw [← held]
    exact done.enough
  · rcases over_dump with ⟨hl, hs, hc, -⟩ | ⟨low, since, -, -, -, pending⟩
    · exact ⟨hl, hs, hc⟩
    · cases pending

/-- A dump to 40 and back to 60 fires once the reclaim has been held for 3 s. -/
def plainBounce : PriceFeed :=
  everySecond (List.replicate 10 100 ++ [40, 60, 60, 60, 60]) (by decide +kernel)

theorem fires_after_bounce_plain :
    plainBounce.RealBounce quickReclaim 14 ⟨40, 60, some 50, 40, 10⟩ :=
  fires_after_bounce (by decide +kernel)

end Dump

section Confirmation

/-- At every fire all ticks of the confirmation span were at or above the reclaim threshold. -/
def SustainedReclaim (f : PriceFeed) (cfg : CapitulationConfig) : Prop :=
  ∀ n signal, f.verdict cfg n = some signal → ∀ i ≤ n,
    f.time n - fromSecs cfg.reclaimConfirmSecs ≤ f.time i →
    signal.low * (1 + cfg.reclaimPct / 100) ≤ f.value i

/-- A tick below the reclaim threshold leaves no confirmation running. -/
def RelapseRestarts (f : PriceFeed) (cfg : CapitulationConfig) : Prop :=
  ∀ n, ∀ low ∈ (f.detector cfg n).pendingLow, f.value n < low * (1 + cfg.reclaimPct / 100) →
    (f.detector cfg (n + 1)).reclaimConfirmStarted = none

/-- A relapse while a confirmation runs finds the gates open, and either the dump expired, no
STAGE 1 dump or a new low. -/
def RelapseJudged (f : PriceFeed) (cfg : CapitulationConfig) (n : Nat) : Prop :=
  ∀ low ∈ (f.detector cfg n).pendingLow, (f.detector cfg n).reclaimConfirmStarted.isSome →
    f.value n < low * (1 + cfg.reclaimPct / 100) →
    (f.observed cfg n).judges (f.time n) ∧ ((f.observed cfg n).expired (f.time n) ∨
      (f.observed cfg n).dumped (f.value n) = false ∨ f.value n < low)

/-- No tick below the threshold shares the clock reading at which a confirmation began that now
completes on the dot. -/
def EdgeClear (f : PriceFeed) (cfg : CapitulationConfig) (n : Nat) : Prop :=
  ∀ low, f.Completes cfg n low → ∀ i < n,
    f.time i = (f.detector cfg n).reclaimConfirmStarted.getD (f.time n) →
    f.time n = f.time i + fromSecs cfg.reclaimConfirmSecs →
    low * (1 + cfg.reclaimPct / 100) ≤ f.value i

theorem restarts_of_judged (judged : f.RelapseJudged cfg n) {low : ℚ}
    (pending : (f.detector cfg n).pendingLow = some low)
    (below : f.value n < low * (1 + cfg.reclaimPct / 100)) :
    (f.detector cfg (n + 1)).reclaimConfirmStarted = none := by
  have heeded := judged low pending
  rw [(f.coherent cfg n).confirming] at heeded
  rw [(f.coherent cfg (n + 1)).confirming]
  rcases (f.coherent cfg n).cases with ⟨idle, -⟩ | ⟨low', since, hl, -, -, before⟩
  · rw [pending] at idle
    cases idle
  obtain rfl : low' = low := Option.some.inj (hl.symm.trans pending)
  have short : ¬ (f.observed cfg n).threshold low' ≤ f.value n := by
    rw [f.observed_threshold]
    exact not_le.mpr below
  have step := f.moves cfg n
  rw [before] at step heeded
  generalize (f.detector cfg n).reclaimConfirmStarted = c at step heeded
  generalize (f.detector cfg (n + 1)).phase = q at step ⊢
  generalize (f.verdict cfg n).map ReclaimSignal.low = fired at step
  cases step with
  | ignored shut =>
    cases running : c with
    | none => rfl
    | some s =>
      rw [running] at heeded
      have opened := (heeded rfl below).1
      rw [shut] at opened
      cases opened
  | holds judges dump live above =>
    cases running : c with
    | none => rfl
    | some s =>
      rw [running] at heeded
      rcases (heeded rfl below).2 with old | calm | lower
      · rw [live] at old
        cases old
      · rw [dump] at calm
        cases calm
      · exact absurd lower (not_lt.mpr above)
  | waits judges calm live reached sparse => exact absurd reached short
  | confirms judges calm live reached enough early => exact absurd reached short
  | begins | deepens | rests | relapses | fires => rfl

theorem judged_of_restarts (restarts : f.RelapseRestarts cfg) : f.RelapseJudged cfg n := by
  intro low pending running below
  have ended := restarts n low pending below
  rw [(f.coherent cfg (n + 1)).confirming] at ended
  rw [(f.coherent cfg n).confirming] at running
  rcases (f.coherent cfg n).cases with ⟨idle, -⟩ | ⟨low', since, hl, -, -, before⟩
  · rw [pending] at idle
    cases idle
  obtain rfl : low' = low := Option.some.inj (hl.symm.trans pending)
  have short : ¬ (f.observed cfg n).threshold low' ≤ f.value n := by
    rw [f.observed_threshold]
    exact not_le.mpr below
  have step := f.moves cfg n
  rw [before] at step running
  generalize (f.detector cfg n).reclaimConfirmStarted = c at step running
  generalize (f.detector cfg (n + 1)).phase = q at step ended
  generalize (f.verdict cfg n).map ReclaimSignal.low = fired at step
  cases step with
  | ignored shut =>
    rw [ended] at running
    cases running
  | begins judges dump idle =>
    rcases idle with quiet | old
    · cases quiet
    · exact ⟨judges, .inl old⟩
  | deepens judges dump live lower => exact ⟨judges, .inr (.inr lower)⟩
  | holds judges dump live above =>
    rw [ended] at running
    cases running
  | rests judges calm idle => exact ⟨judges, .inr (.inl calm)⟩
  | relapses judges calm live below => exact ⟨judges, .inr (.inl calm)⟩
  | waits judges calm live reached sparse => exact absurd reached short
  | confirms judges calm live reached enough early => exact absurd reached short
  | fires judges calm live reached enough confirmed => exact absurd reached short

theorem sustained_since (judged : ∀ k, f.RelapseJudged cfg k) {low : ℚ} {since s : Instant}
    (pending : (f.detector cfg n).phase = .pending low since (some s)) :
    ∃ k < n, f.time k = s ∧
      ∀ i, k ≤ i → i < n → low * (1 + cfg.reclaimPct / 100) ≤ f.value i := by
  induction n generalizing low since with
  | zero => cases pending
  | succ n ih =>
    -- a tick that keeps the low and the confirmation has reached the threshold
    have carry (before : (f.detector cfg n).phase = .pending low since (some s))
        (reached : low * (1 + cfg.reclaimPct / 100) ≤ f.value n) :
        ∃ k < n + 1, f.time k = s ∧
          ∀ i, k ≤ i → i < n + 1 → low * (1 + cfg.reclaimPct / 100) ≤ f.value i := by
      obtain ⟨k, lt, stamp, held⟩ := ih before
      refine ⟨k, lt.trans n.lt_succ_self, stamp, ?_⟩
      intro i after upto
      rcases Nat.lt_succ_iff_lt_or_eq.mp upto with earlier | rfl
      · exact held i after earlier
      · exact reached
    have kept (before : (f.detector cfg n).phase = .pending low since (some s)) :
        low * (1 + cfg.reclaimPct / 100) ≤ f.value n := by
      by_contra below
      obtain ⟨hl, -, -⟩ := (f.coherent cfg n).pending_iff.mp before
      have ended := restarts_of_judged (judged n) hl (not_le.mp below)
      rw [(f.coherent cfg (n + 1)).confirming, pending] at ended
      cases ended
    have step := f.moves cfg n
    rw [pending] at step
    generalize before : (f.detector cfg n).phase = p at step
    generalize (f.verdict cfg n).map ReclaimSignal.low = fired at step
    cases step with
    | ignored shut => exact carry before (kept before)
    | holds judges dump live above => exact carry before (kept before)
    | waits judges calm live reached sparse => exact carry before (kept before)
    | confirms judges calm live reached enough early =>
      rw [f.observed_threshold] at reached
      cases running : (f.observed cfg n).reclaimConfirmStarted with
      | none =>
        refine ⟨n, n.lt_succ_self, rfl, ?_⟩
        intro i after upto
        obtain rfl : i = n := Nat.le_antisymm (Nat.le_of_lt_succ upto) after
        exact reached
      | some s =>
        rw [running] at before carry
        exact carry before reached

theorem sustained_of_judged (judged : ∀ k, f.RelapseJudged cfg k)
    (clear : ∀ k, f.EdgeClear cfg k) : f.SustainedReclaim cfg := by
  intro n signal fired i le young
  have done := completes_of_fire fired
  have due := (f.observed_due cfg n).mp done.confirmed
  rcases Nat.lt_or_eq_of_le le with before | rfl
  case inr => exact done.reached
  have ordered : f.time i ≤ f.time n := f.time_mono le
  have edge (start : Instant)
      (began : (f.detector cfg n).reclaimConfirmStarted.getD (f.time n) = start)
      (early : f.time i ≤ start) (on_time : start ≤ f.time n) :
      signal.low * (1 + cfg.reclaimPct / 100) ≤ f.value i := by
    rw [began] at due
    have span : start + fromSecs cfg.reclaimConfirmSecs ≤ f.time n := by
      rw [Nat.add_comm]
      exact Nat.add_le_of_le_sub on_time due
    have reach : f.time n ≤ f.time i + fromSecs cfg.reclaimConfirmSecs :=
      Nat.le_add_of_sub_le young
    have dot : f.time i = start :=
      le_antisymm early (Nat.le_of_add_le_add_right (span.trans reach))
    apply clear n signal.low done i before
    · rw [began, dot]
    · exact le_antisymm reach (by rw [dot]; exact span)
  cases running : (f.detector cfg n).reclaimConfirmStarted with
  | none =>
    apply edge (f.time n) _ ordered (le_refl _)
    rw [running, Option.getD_none]
  | some s =>
    rcases (f.coherent cfg n).cases with ⟨idle, -⟩ | ⟨low, since, hl, -, -, pending⟩
    · rw [done.pending] at idle
      cases idle
    obtain rfl : low = signal.low := Option.some.inj (hl.symm.trans done.pending)
    rw [running] at pending
    obtain ⟨k, lt, stamp, held⟩ := sustained_since judged pending
    rcases Nat.lt_or_ge i k with earlier | later
    · apply edge s
      · rw [running, Option.getD_some]
      · rw [← stamp]
        exact f.time_mono earlier.le
      · rw [← stamp]
        exact f.time_mono lt.le
    · exact held i later before

theorem edgeClear_of_sustained (sustained : f.SustainedReclaim cfg) : f.EdgeClear cfg n := by
  intro low done i before began dot
  obtain ⟨signal, fired, same⟩ := done.fire
  rw [← same]
  apply sustained n signal fired i before.le
  rw [dot, Nat.add_sub_cancel]

/-- The reclaim is continuously sustained exactly when every relapse under a running confirmation
is judged and no relapse shares the reading a confirmation is counted from. -/
theorem reclaim_sustained_iff (f : PriceFeed) (cfg : CapitulationConfig) :
    (f.SustainedReclaim cfg ∧ f.RelapseRestarts cfg) ↔
      ∀ n, f.RelapseJudged cfg n ∧ f.EdgeClear cfg n := by
  constructor
  · rintro ⟨sustained, restarts⟩ n
    exact ⟨judged_of_restarts restarts, edgeClear_of_sustained sustained⟩
  · intro honest
    constructor
    · exact sustained_of_judged (fun n => (honest n).1) (fun n => (honest n).2)
    · intro n low pending below
      exact restarts_of_judged (honest n).1 pending below

/-- A dump to 40, back to 60, a relapse to 42 that is no new low, and back to 60. -/
def relapsingBounce : PriceFeed :=
  everySecond (List.replicate 10 100 ++ [40, 60, 42, 60, 60]) (by decide +kernel)

/-- The relapse takes the STAGE 1 branch, so the confirmation that began at 60 runs on and fires. -/
theorem relapse_outlived : ¬ (relapsingBounce.SustainedReclaim quickReclaim ∧
    relapsingBounce.RelapseRestarts quickReclaim) := by
  rintro ⟨sustained, -⟩
  have reached := sustained 14 ⟨40, 60, some 50, 40, 10⟩ (by decide +kernel) 12 (by decide)
    (by decide +kernel)
  exact absurd reached (by decide +kernel)

end Confirmation

section Low

/-- After every check that leaves the detector pending, the low is the least price of all ticks
since the pending state began. -/
def LowIsLeast (f : PriceFeed) (cfg : CapitulationConfig) : Prop :=
  ∀ n low since, (f.detector cfg (n + 1)).pendingLow = some low →
    (f.detector cfg (n + 1)).pendingStarted = some since →
    IsLeast (f.seen (fun i => since ≤ f.time i) (n + 1)) low

/-- A price below the low finds the gates open, and either the dump expired, a STAGE 1 dump or a
completed confirmation. -/
def LowerTaken (f : PriceFeed) (cfg : CapitulationConfig) (n : Nat) : Prop :=
  ∀ low ∈ (f.detector cfg n).pendingLow, f.value n < low →
    (f.observed cfg n).judges (f.time n) ∧ ((f.observed cfg n).expired (f.time n) ∨
      (f.observed cfg n).dumped (f.value n) ∨ f.Completes cfg n low)

/-- No lower price shares the clock reading of the tick that begins a pending state. -/
def FirstLowest (f : PriceFeed) (cfg : CapitulationConfig) (n : Nat) : Prop :=
  f.Begins cfg n → ∀ i < n, f.time i = f.time n → f.value n ≤ f.value i

theorem Begins.phase (h : f.Begins cfg n) :
    (f.detector cfg (n + 1)).phase = .pending (f.value n) (f.time n) none := by
  obtain ⟨one, idle⟩ := h
  have step := f.moves cfg n
  generalize (f.detector cfg n).phase = p at step idle
  generalize (f.detector cfg (n + 1)).phase = q at step ⊢
  generalize (f.verdict cfg n).map ReclaimSignal.low = fired at step
  cases step with
  | ignored shut => exact absurd one (not_stageOne_of_shut shut)
  | begins judged dump old => rfl
  | deepens judged dump live lower => simp [live] at idle
  | holds judged dump live above => simp [live] at idle
  | rests judged calm old => exact absurd one (not_stageOne_of_calm calm)
  | relapses judged calm live below => exact absurd one (not_stageOne_of_calm calm)
  | waits judged calm live reached sparse => exact absurd one (not_stageOne_of_calm calm)
  | confirms judged calm live reached enough early =>
    exact absurd one (not_stageOne_of_calm calm)
  | fires judged calm live reached enough confirmed =>
    exact absurd one (not_stageOne_of_calm calm)

theorem since_le {low : ℚ} {since : Instant} {c : Option Instant}
    (pending : (f.detector cfg n).phase = .pending low since c) : since ≤ f.time n := by
  obtain ⟨d, w⟩ := f.watches cfg n pending
  rw [← w.stamp]
  exact f.time_mono w.lt.le

theorem low_le_of_calm {low : ℚ} {since : Instant} {c : Option Instant}
    (taken : f.LowerTaken cfg n) (pending : (f.detector cfg n).phase = .pending low since c)
    (calm : (f.observed cfg n).dumped (f.value n) = false)
    (live : (f.observed cfg n).expired (f.time n) = false)
    (unfinished : ¬ f.Completes cfg n low) : low ≤ f.value n := by
  obtain ⟨known, -, -⟩ := (f.coherent cfg n).pending_iff.mp pending
  by_contra below
  obtain ⟨-, old | dump | done⟩ := taken low known (not_le.mp below)
  · rw [live] at old
    cases old
  · rw [calm] at dump
    cases dump
  · exact unfinished done

theorem least_since (taken : ∀ k, f.LowerTaken cfg k) (first : ∀ k, f.FirstLowest cfg k)
    {low : ℚ} {since : Instant} {c : Option Instant}
    (pending : (f.detector cfg n).phase = .pending low since c) :
    IsLeast (f.seen (fun i => since ≤ f.time i) n) low := by
  induction n generalizing low since c with
  | zero => cases pending
  | succ n ih =>
    have step := f.moves cfg n
    rw [pending] at step
    generalize before : (f.detector cfg n).phase = p at step
    generalize (f.verdict cfg n).map ReclaimSignal.low = fired at step
    cases step with
    | ignored shut =>
      apply f.least_kept (ih before)
      intro _
      by_contra below
      obtain ⟨known, -, -⟩ := (f.coherent cfg n).pending_iff.mp before
      have judged := (taken n low known (not_le.mp below)).1
      rw [shut] at judged
      cases judged
    | begins judged dump idle =>
      rw [← before] at idle
      constructor
      · exact ⟨n, n.lt_succ_self, le_refl _, rfl⟩
      · rintro x ⟨i, lt, late, rfl⟩
        rcases Nat.lt_succ_iff_lt_or_eq.mp lt with earlier | rfl
        · apply first n ⟨stageOne_of judged dump, idle⟩ i earlier
          exact le_antisymm (f.time_mono earlier.le) late
        · exact le_refl _
    | deepens judged dump live lower =>
      exact f.least_lowered (ih before) (since_le before) lower.le
    | holds judged dump live above => exact f.least_kept (ih before) fun _ => above
    | relapses judged calm live below =>
      apply f.least_kept (ih before)
      intro _
      apply low_le_of_calm (taken n) before calm live
      intro done
      rw [f.observed_threshold] at below
      exact absurd done.reached (not_le.mpr below)
    | waits judged calm live reached sparse =>
      apply f.least_kept (ih before)
      intro _
      apply low_le_of_calm (taken n) before calm live
      intro done
      exact absurd done.enough (not_le.mpr sparse)
    | confirms judged calm live reached enough early =>
      apply f.least_kept (ih before)
      intro _
      apply low_le_of_calm (taken n) before calm live
      intro done
      rw [done.confirmed] at early
      cases early

theorem taken_of_least (least : f.LowIsLeast cfg) : f.LowerTaken cfg n := by
  intro low pending below
  rcases (f.coherent cfg n).cases with ⟨idle, -⟩ | ⟨low', since, hl, -, -, before⟩
  · rw [pending] at idle
    cases idle
  obtain rfl : low' = low := Option.some.inj (hl.symm.trans pending)
  -- a pending state that keeps the low has missed the lower price
  have missed {c : Option Instant}
      (after : (f.detector cfg (n + 1)).phase = .pending low' since c) : False := by
    obtain ⟨hl', hs', -⟩ := (f.coherent cfg (n + 1)).pending_iff.mp after
    have bound := (least n low' since hl' hs').2 ⟨n, n.lt_succ_self, since_le before, rfl⟩
    exact absurd below (not_lt.mpr bound)
  have step := f.moves cfg n
  rw [before] at step
  have running : (f.observed cfg n).reclaimConfirmStarted =
      (f.detector cfg n).reclaimConfirmStarted :=
    ((f.detector cfg n).observe_pending (f.time n) (f.value n)).2.2.1
  rw [← running] at step
  generalize after : (f.detector cfg (n + 1)).phase = q at step
  generalize (f.verdict cfg n).map ReclaimSignal.low = fired at step
  cases step with
  | ignored shut => exact (missed after).elim
  | begins judged dump idle => exact ⟨judged, .inr (.inl dump)⟩
  | deepens judged dump live lower => exact ⟨judged, .inr (.inl dump)⟩
  | holds judged dump live above => exact ⟨judged, .inr (.inl dump)⟩
  | rests judged calm idle =>
    rcases idle with quiet | old
    · cases quiet
    · exact ⟨judged, .inl old⟩
  | relapses judged calm live below => exact (missed after).elim
  | waits judged calm live reached sparse => exact (missed after).elim
  | confirms judged calm live reached enough early => exact (missed after).elim
  | fires judged calm live reached enough confirmed =>
    rw [f.observed_threshold] at reached
    exact ⟨judged, .inr (.inr ⟨hl, judged, calm, live, reached, enough, confirmed⟩)⟩

/-- The low is the least price since the pending state began exactly when every lower price is
taken by STAGE 1 and none shares the reading the pending state began at. -/
theorem pending_low_least_iff (f : PriceFeed) (cfg : CapitulationConfig) :
    f.LowIsLeast cfg ↔ ∀ n, f.LowerTaken cfg n ∧ f.FirstLowest cfg n := by
  constructor
  · intro least n
    refine ⟨taken_of_least least, ?_⟩
    intro begins i lt same
    obtain ⟨hl, hs, -⟩ := (f.coherent cfg (n + 1)).pending_iff.mp begins.phase
    exact (least n _ _ hl hs).2 ⟨i, lt.trans n.lt_succ_self, same.ge, rfl⟩
  · intro honest n low since hl hs
    exact least_since (fun k => (honest k).1) (fun k => (honest k).2)
      ((f.coherent cfg (n + 1)).pending_iff.mpr ⟨hl, hs, rfl⟩)

/-- A dump to 45 whose reference then rolls down to 70, so that 40 is no dump. -/
def slidingReference : PriceFeed :=
  everySecond (100 :: List.replicate 9 70 ++ [45, 40]) (by decide +kernel)

/-- The lower price takes the STAGE 2 branch, and the low stays at 45. -/
theorem lower_price_missed : ¬ slidingReference.LowIsLeast quickReclaim := by
  intro least
  have bound := (least 11 45 (fromSecs 10) (by decide +kernel) (by decide +kernel)).2
    ⟨11, by decide, by decide +kernel, rfl⟩
  exact absurd bound (by decide +kernel)

end Low

end PriceFeed

end HadesPsTrader.Market
