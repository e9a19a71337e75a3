/- Module: HadesPsTrader/Market/ExactWindows
   source: src/dip_buy.rs, src/capitulation.rs
   digest: Under calls in any order both evicted queues are exact windows of what was pushed. -/

import HadesPsTrader.Interaction.Windowed
import HadesPsTrader.Market.CapitulationRuns
import HadesPsTrader.Market.SpendWindow

set_option autoImplicit false
set_option relaxedAutoImplicit false

open HadesPsTrader.Interaction

namespace HadesPsTrader.Market

/-- Everything that the calls up to and including call `n` have pushed, in their order. -/
def Feed.pushed {α ε : Type} (f : Feed α) (brings : α → Option ε) (n : Nat) :
    List (Instant × ε) :=
  (f.before (n + 1)).filterMap fun call => (brings call.2).map (call.1, ·)

inductive SpendCall
  | check (amountSol : ℚ)
  | record (amountSol : ℚ)
  | total24h

inductive SpendReturn
  | checked (verdict : Except ℚ Unit)
  | recorded
  | total (sol : ℚ)

namespace SpendCall

def recorded : SpendCall → Option ℚ
  | .check _ => none
  | .record amountSol => some amountSol
  | .total24h => none

def returns (capSol spent : ℚ) : SpendCall → SpendReturn
  | .check amountSol => .checked (if capSol < spent + amountSol then .error spent else .ok ())
  | .record _ => .recorded
  | .total24h => .total spent

end SpendCall

namespace DailySpendTracker

def called (t : DailySpendTracker) (now : Instant) : SpendCall → DailySpendTracker × SpendReturn
  | .check amountSol => ((t.check now amountSol).1, .checked (t.check now amountSol).2)
  | .record amountSol => (t.record now amountSol, .recorded)
  | .total24h => ((t.total24h now).1, .total (t.total24h now).2)

def calls (capSol : ℚ) : Machine DailySpendTracker (Instant × SpendCall) SpendReturn where
  start := new capSol
  step t call := t.called call.1 call.2

theorem check_evicts (t : DailySpendTracker) (now : Instant) (amountSol : ℚ) :
    (t.check now amountSol).1 = t.evict now := by
  unfold check
  dsimp only
  split_ifs <;> rfl

theorem called_state (t : DailySpendTracker) (now : Instant) (call : SpendCall) :
    (t.called now call).1 = { t with
      spends := evictOld t.window now t.spends ++ (call.recorded.map (now, ·)).toList } := by
  have evicted : t.evict now = { t with spends := evictOld t.window now t.spends ++ [] } := by
    rw [List.append_nil]
    rfl
  cases call with
  | check amountSol => exact (t.check_evicts now amountSol).trans evicted
  | record amountSol => rfl
  | total24h => exact evicted

theorem called_return (t : DailySpendTracker) (now : Instant) (call : SpendCall) :
    (t.called now call).2 = call.returns t.capSol (t.evict now).total := by
  cases call with
  | check amountSol =>
    have same : (t.evict now).capSol = t.capSol := rfl
    simp only [called, SpendCall.returns, check, same]
    split_ifs <;> rfl
  | record amountSol => rfl
  | total24h => rfl

/-- The spends as a queue with a window of 24 hours. -/
def windowed (capSol : ℚ) : Windowed (calls capSol) (recency (fromSecs (24 * 60 * 60))) Prod.fst
    (fun call => call.2.recorded) where
  queue := spends
  Sound t := t.window = fromSecs (24 * 60 * 60) ∧ t.capSol = capSol
  sound := ⟨rfl, rfl⟩
  empty := rfl
  keeps := by
    intro t call sound
    have stepped : ((calls capSol).step t call).1 = _ := t.called_state call.1 call.2
    rw [stepped]
    exact sound
  step := by
    intro t call sound
    have stepped : ((calls capSol).step t call).1 = _ := t.called_state call.1 call.2
    rw [stepped, ← evictOld_eq_evict, ← sound.1]

variable (capSol : ℚ) (f : Feed SpendCall)

theorem spends_eq (n : Nat) : ((calls capSol).state f.tick (n + 1)).spends =
    (f.pushed SpendCall.recorded n).filter fun e => f.time n - e.1 ≤ fromSecs (24 * 60 * 60) :=
  (windowed capSol).queue_eq f.ordered n

theorem total24h_eq (n : Nat) {now : Instant} (le : f.time n ≤ now) :
    (((calls capSol).state f.tick (n + 1)).total24h now).2 =
      spentWithin (fromSecs (24 * 60 * 60)) (f.pushed SpendCall.recorded n) now := by
  have width : ((calls capSol).state f.tick (n + 1)).window = fromSecs (24 * 60 * 60) :=
    ((windowed capSol).state_sound (n + 1)).1
  have evicted : (((calls capSol).state f.tick (n + 1)).evict now).spends =
      (f.pushed SpendCall.recorded n).filter fun e => now - e.1 ≤ fromSecs (24 * 60 * 60) := by
    rw [evict, width, evictOld_eq_evict]
    exact (windowed capSol).evict_queue f.ordered n le
  rw [total24h, total, evicted, spentWithin]

/-- Every call answers from the exact sum of the last 24 hours. -/
theorem calls_answer (n : Nat) : (calls capSol).answer f.tick n = (f.value n).returns capSol
    (spentWithin (fromSecs (24 * 60 * 60)) (f.pushed SpendCall.recorded n) (f.time n)) := by
  have cap : ((calls capSol).state f.tick n).capSol = capSol :=
    ((windowed capSol).state_sound n).2
  have returned : (calls capSol).answer f.tick n = (f.value n).returns capSol
      (((calls capSol).state f.tick n).evict (f.time n)).total :=
    (called_return _ _ _).trans (by rw [cap]; rfl)
  have stepped : ((calls capSol).state f.tick (n + 1)).spends =
      (((calls capSol).state f.tick n).evict (f.time n)).spends ++
        ((f.value n).recorded.map (f.time n, ·)).toList :=
    congrArg spends (called_state _ _ _)
  have spent (quiet : (f.value n).recorded = none) :
      (((calls capSol).state f.tick n).evict (f.time n)).total =
        spentWithin (fromSecs (24 * 60 * 60)) (f.pushed SpendCall.recorded n) (f.time n) := by
    rw [spends_eq, quiet, Option.map_none, Option.toList_none, List.append_nil] at stepped
    rw [total, ← stepped, spentWithin]
  rw [returned]
  cases call : f.value n with
  | record amountSol => rfl
  | check amountSol => rw [spent (congrArg SpendCall.recorded call)]
  | total24h => rw [spent (congrArg SpendCall.recorded call)]

end DailySpendTracker

inductive TickCall
  | observe (price : ℚ)
  | check (price : ℚ)

/-- The price that a call stores. -/
def TickCall.observed : TickCall → Option ℚ
  | .observe price => some price
  | .check _ => none

namespace CapitulationDetector

def called (d : CapitulationDetector) (now : Instant) :
    TickCall → CapitulationDetector × Option ReclaimSignal
  | .observe price => (d.observe now price, none)
  | .check price => d.check now price

def calls (cfg : CapitulationConfig) :
    Machine CapitulationDetector (Instant × TickCall) (Option ReclaimSignal) where
  start := new cfg
  step d call := d.called call.1 call.2

variable {d : CapitulationDetector}

theorem check_evicted (on : d.enabled = true) (now : Instant) (price : ℚ) :
    d.check now price = { d with ticks := evictOld d.window now d.ticks }.check now price := by
  have off : ¬ (!d.enabled) = true := by
    rw [on]
    exact Bool.false_ne_true
  unfold check
  dsimp only
  rw [if_neg off, if_neg off, evictOld_evictOld]

theorem called_held (on : d.enabled = true) (now : Instant) (call : TickCall) :
    (d.called now call).1.settings = d.settings ∧ (d.called now call).1.ticks =
      evictOld d.window now d.ticks ++ (call.observed.map (now, ·)).toList := by
  cases call with
  | observe price =>
    refine ⟨d.observe_settings now price, ?_⟩
    rw [called, observe, if_pos on]
    rfl
  | check price =>
    have fresh : evictOld d.window now (evictOld d.window now d.ticks) =
        evictOld d.window now d.ticks := evictOld_evictOld d.ticks
    rw [called, check_evicted on, TickCall.observed, Option.map_none, Option.toList_none,
      List.append_nil]
    exact ⟨check_settings fresh price, (check_memory fresh price).1⟩

/-- The ticks of a detector that is on, as a queue with the configured window. -/
def windowed {cfg : CapitulationConfig} (on : cfg.enabled = true) :
    Windowed (calls cfg) (recency (fromSecs cfg.windowSecs)) Prod.fst
      (fun call => call.2.observed) where
  queue := ticks
  Sound d := d.settings = new cfg
  sound := rfl
  empty := rfl
  keeps := by
    intro d call settings
    have enabled : d.enabled = true := (congrArg CapitulationDetector.enabled settings).trans on
    exact (called_held enabled call.1 call.2).1.trans settings
  step := by
    intro d call settings
    have enabled : d.enabled = true := (congrArg CapitulationDetector.enabled settings).trans on
    have width : d.window = fromSecs cfg.windowSecs :=
      congrArg CapitulationDetector.window settings
    rw [← evictOld_eq_evict, ← width]
    exact (called_held enabled call.1 call.2).2

theorem ticks_eq {cfg : CapitulationConfig} (on : cfg.enabled = true) (f : Feed TickCall)
    (n : Nat) : ((calls cfg).state f.tick (n + 1)).ticks =
    (f.pushed TickCall.observed n).filter fun e => f.time n - e.1 ≤ fromSecs cfg.windowSecs :=
  (windowed on).queue_eq f.ordered n

end CapitulationDetector

/-- After every call, in any order of calls, each queue holds exactly what was ever pushed and is
at most a window old, in the order of the pushes. So the total is the sum over the last 24 hours,
and the front of the ticks is the oldest tick inside the window. -/
theorem front_eviction_is_windowing (capSol : ℚ) (spends : Feed SpendCall)
    {cfg : CapitulationConfig} (on : cfg.enabled = true) (ticks : Feed TickCall) (n : Nat) :
    (((DailySpendTracker.calls capSol).state spends.tick (n + 1)).spends =
        (spends.pushed SpendCall.recorded n).filter
          fun e => spends.time n - e.1 ≤ fromSecs (24 * 60 * 60)) ∧
      (∀ now, spends.time n ≤ now →
        (((DailySpendTracker.calls capSol).state spends.tick (n + 1)).total24h now).2 =
          (((spends.pushed SpendCall.recorded n).filter
            fun e => now - e.1 ≤ fromSecs (24 * 60 * 60)).map Prod.snd).sum) ∧
      (((CapitulationDetector.calls cfg).state ticks.tick (n + 1)).ticks =
        (ticks.pushed TickCall.observed n).filter
          fun e => ticks.time n - e.1 ≤ fromSecs cfg.windowSecs) ∧
      ((CapitulationDetector.calls cfg).state ticks.tick (n + 1)).ticks.head? =
        (ticks.pushed TickCall.observed n).find?
          (fun e => ticks.time n - e.1 ≤ fromSecs cfg.windowSecs) ∧
      ∀ front ∈ ((CapitulationDetector.calls cfg).state ticks.tick (n + 1)).ticks.head?,
        ∀ e ∈ ticks.pushed TickCall.observed n,
          ticks.time n - e.1 ≤ fromSecs cfg.windowSecs → front.1 ≤ e.1 := by
  have held := CapitulationDetector.ticks_eq on ticks n
  refine ⟨DailySpendTracker.spends_eq capSol spends n, ?_, held, ?_, ?_⟩
  · intro now le
    exact DailySpendTracker.total24h_eq capSol spends n le
  · rw [held, List.head?_filter]
  · intro front first e mem recent
    exact (CapitulationDetector.windowed on).front_oldest ticks.ordered n first mem
      (decide_eq_true recent)

/-- A spend every half day, but for a look at the total in the fifth call. -/
def halfDays : Feed SpendCall where
  tick i := (i * fromSecs (12 * 60 * 60), if i = 4 then .total24h else .record 1)
  ordered _ _ le := Nat.mul_le_mul_right _ le

/-- A tick every half minute, but for a check in the fifth call. -/
def halfMinutes : Feed TickCall where
  tick i := (i * fromSecs 30, if i = 4 then .check 1 else .observe 1)
  ordered _ _ le := Nat.mul_le_mul_right _ le

def minuteWindow : CapitulationConfig where
  enabled := true

theorem front_eviction_is_windowing_at_boundary :
    ((DailySpendTracker.calls 5).state halfDays.tick 5).spends =
        [(2 * fromSecs (12 * 60 * 60), 1), (3 * fromSecs (12 * 60 * 60), 1)] ∧
      (((DailySpendTracker.calls 5).state halfDays.tick 5).total24h (halfDays.time 4)).2 = 2 ∧
      ((CapitulationDetector.calls minuteWindow).state halfMinutes.tick 5).ticks =
        [(2 * fromSecs 30, 1), (3 * fromSecs 30, 1)] ∧
      ((CapitulationDetector.calls minuteWindow).state halfMinutes.tick 5).ticks.head? =
        some (2 * fromSecs 30, 1) := by
  have on : minuteWindow.enabled = true := rfl
  obtain ⟨spends, total, ticks, front, -⟩ :=
    front_eviction_is_windowing 5 halfDays on halfMinutes 4
  have kept : ((halfDays.pushed SpendCall.recorded 4).filter
      fun e => halfDays.time 4 - e.1 ≤ fromSecs (24 * 60 * 60)) =
        [(2 * fromSecs (12 * 60 * 60), 1), (3 * fromSecs (12 * 60 * 60), 1)] := by decide
  have sum := total (halfDays.time 4) le_rfl
  rw [kept] at sum
  refine ⟨spends.trans kept, sum.trans ?_, ticks.trans (by decide), front.trans (by decide)⟩
  norm_num

end HadesPsTrader.Market
