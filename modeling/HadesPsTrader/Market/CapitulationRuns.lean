/- Module: HadesPsTrader/Market/CapitulationRuns
   source: src/capitulation.rs
   digest: The reclaim detector fed tick by tick, and the history behind its pending state. -/

import Mathlib.Order.Bounds.Basic
import HadesPsTrader.Interaction.Machine
import HadesPsTrader.Market.CapitulationPhases
import HadesPsTrader.Market.TickWindow

set_option autoImplicit false
set_option relaxedAutoImplicit false

open HadesPsTrader.Interaction

namespace HadesPsTrader.Market

namespace CapitulationDetector

/-- A detector without its memory. -/
def settings (d : CapitulationDetector) : CapitulationDetector :=
  { d with
    ticks := [], pendingLow := none, pendingStarted := none,
    reclaimConfirmStarted := none, lastFire := none }

theorem observe_fresh {d : CapitulationDetector} (off : d.enabled = false → d.ticks = [])
    (now : Instant) (price : ℚ) :
    evictOld (d.observe now price).window now (d.observe now price).ticks =
      (d.observe now price).ticks := by
  unfold observe
  by_cases on : d.enabled = true
  · rw [if_pos on]
    exact evictOld_push d.ticks price
  · rw [if_neg on, off (Bool.eq_false_iff.mpr on)]
    rfl

theorem observe_settings (d : CapitulationDetector) (now : Instant) (price : ℚ) :
    (d.observe now price).settings = d.settings := by
  unfold observe
  split_ifs <;> rfl

private theorem expirePending_settings (d : CapitulationDetector) (now : Instant) :
    (d.expirePending now).settings = d.settings := by
  rcases d.expirePending_cases now with ⟨-, same⟩ | ⟨-, cleared⟩
  · rw [same]
  · rw [cleared]
    rfl

private theorem recordLow_settings (d : CapitulationDetector) (now : Instant) (price : ℚ) :
    (d.recordLow now price).settings = d.settings := by
  unfold recordLow
  split
  · split_ifs <;> rfl
  · rfl

private theorem confirmReclaim_settings (d : CapitulationDetector) (now : Instant)
    (price dumpPct : ℚ) : (d.confirmReclaim now price dumpPct).1.settings = d.settings := by
  unfold confirmReclaim
  split
  · rfl
  · dsimp only
    split_ifs <;> rfl

theorem check_settings {d : CapitulationDetector} {now : Instant}
    (fresh : evictOld d.window now d.ticks = d.ticks) (price : ℚ) :
    (d.check now price).1.settings = d.settings := by
  rcases check_cases fresh price with ⟨-, done⟩ | ⟨-, -, done⟩ | ⟨-, -, dumpPct, done⟩
  · rw [done]
  · rw [done, recordLow_settings, expirePending_settings]
  · rw [done, confirmReclaim_settings, expirePending_settings]

private theorem expirePending_memory (d : CapitulationDetector) (now : Instant) :
    (d.expirePending now).ticks = d.ticks ∧ (d.expirePending now).lastFire = d.lastFire := by
  rcases d.expirePending_cases now with ⟨-, same⟩ | ⟨-, cleared⟩
  · rw [same]
    exact ⟨rfl, rfl⟩
  · rw [cleared]
    exact ⟨rfl, rfl⟩

private theorem recordLow_memory (d : CapitulationDetector) (now : Instant) (price : ℚ) :
    (d.recordLow now price).ticks = d.ticks ∧ (d.recordLow now price).lastFire = d.lastFire := by
  unfold recordLow
  split
  · split_ifs <;> exact ⟨rfl, rfl⟩
  · exact ⟨rfl, rfl⟩

private theorem confirmReclaim_memory (d : CapitulationDetector) (now : Instant)
    (price dumpPct : ℚ) :
    (d.confirmReclaim now price dumpPct).1.ticks = d.ticks ∧
      (d.confirmReclaim now price dumpPct).1.lastFire =
        ((d.confirmReclaim now price dumpPct).2.map fun _ => now).or d.lastFire := by
  unfold confirmReclaim
  split
  · exact ⟨rfl, rfl⟩
  · dsimp only
    split_ifs <;> exact ⟨rfl, rfl⟩

theorem check_memory {d : CapitulationDetector} {now : Instant}
    (fresh : evictOld d.window now d.ticks = d.ticks) (price : ℚ) :
    (d.check now price).1.ticks = d.ticks ∧
      (d.check now price).1.lastFire =
        ((d.check now price).2.map fun _ => now).or d.lastFire := by
  obtain ⟨ticks, fired⟩ := d.expirePending_memory now
  rcases check_cases fresh price with ⟨-, done⟩ | ⟨-, -, done⟩ | ⟨-, -, dumpPct, done⟩
  · rw [done]
    exact ⟨rfl, rfl⟩
  · rw [done]
    obtain ⟨kept, quiet⟩ := recordLow_memory (d.expirePending now) now price
    exact ⟨kept.trans ticks, quiet.trans fired⟩
  · rw [done]
    obtain ⟨kept, stamped⟩ := confirmReclaim_memory (d.expirePending now) now price dumpPct
    rw [fired] at stamped
    exact ⟨kept.trans ticks, stamped⟩

theorem observe_pending (d : CapitulationDetector) (now : Instant) (price : ℚ) :
    (d.observe now price).pendingLow = d.pendingLow ∧
      (d.observe now price).pendingStarted = d.pendingStarted ∧
      (d.observe now price).reclaimConfirmStarted = d.reclaimConfirmStarted ∧
      (d.observe now price).lastFire = d.lastFire := by
  unfold observe
  split_ifs <;> exact ⟨rfl, rfl, rfl, rfl⟩

theorem observe_phase (d : CapitulationDetector) (now : Instant) (price : ℚ) :
    (d.observe now price).phase = d.phase := by
  obtain ⟨low, started, confirming, -⟩ := d.observe_pending now price
  rw [phase, phase, low, started, confirming]

/-- The detector as the session feeds it: each tick is observed, then checked. -/
def machine (cfg : CapitulationConfig) :
    Machine CapitulationDetector (Instant × ℚ) (Option ReclaimSignal) where
  start := new cfg
  step d t := (d.observe t.1 t.2).check t.1 t.2

theorem observe_held {f : Feed ℚ} {cfg : CapitulationConfig} {n : Nat} {d : CapitulationDetector}
    (settings : d.settings = new cfg)
    (ticks : d.ticks = if cfg.enabled then f.stored (fromSecs cfg.windowSecs) n else []) :
    (d.observe (f.time n) (f.value n)).settings = new cfg ∧
      (d.observe (f.time n) (f.value n)).ticks =
        if cfg.enabled then f.within (fromSecs cfg.windowSecs) n else [] := by
  have on : d.enabled = cfg.enabled := congrArg CapitulationDetector.enabled settings
  have width : d.window = fromSecs cfg.windowSecs := congrArg CapitulationDetector.window settings
  refine ⟨(observe_settings _ _ _).trans settings, ?_⟩
  unfold observe
  rw [on]
  by_cases enabled : cfg.enabled = true
  · rw [if_pos enabled, if_pos enabled, ← f.evict_push]
    rw [if_pos enabled] at ticks
    rw [ticks, width]
    rfl
  · rw [if_neg enabled] at ticks
    rw [if_neg enabled, if_neg enabled, ticks]

theorem state_held (f : Feed ℚ) (cfg : CapitulationConfig) (n : Nat) :
    ((machine cfg).state f.tick n).settings = new cfg ∧
      ((machine cfg).state f.tick n).ticks =
        if cfg.enabled then f.stored (fromSecs cfg.windowSecs) n else [] := by
  induction n with
  | zero => exact ⟨rfl, by simp [machine, new, Feed.stored, Feed.before]⟩
  | succ n ih =>
    obtain ⟨settings, ticks⟩ := observe_held ih.1 ih.2
    have off : ((machine cfg).state f.tick n).enabled = false →
        ((machine cfg).state f.tick n).ticks = [] := by
      intro off
      have same : ((machine cfg).state f.tick n).enabled = cfg.enabled :=
        congrArg CapitulationDetector.enabled ih.1
      rw [ih.2, ← same, off]
      rfl
    have fresh := observe_fresh off (f.time n) (f.value n)
    obtain ⟨kept, -⟩ := check_memory fresh (f.value n)
    exact ⟨(check_settings fresh _).trans settings, kept.trans ticks⟩

end CapitulationDetector

open CapitulationDetector (machine new)

structure PriceFeed extends Feed ℚ where
  positive : ∀ n, 0 < (tick n).2

namespace PriceFeed

variable (f : PriceFeed) (cfg : CapitulationConfig)

def detector (n : Nat) : CapitulationDetector := (machine cfg).state f.tick n

def observed (n : Nat) : CapitulationDetector :=
  (f.detector cfg n).observe (f.time n) (f.value n)

def verdict (n : Nat) : Option ReclaimSignal := (machine cfg).answer f.tick n

def stageOne (n : Nat) : Bool :=
  (f.observed cfg n).judges (f.time n) && (f.observed cfg n).dumped (f.value n)

theorem value_pos (n : Nat) : 0 < f.value n := f.positive n

/-- What every tick finds: the settings of the configuration, the ticks of the window and coherent
optional fields. -/
structure Sound (n : Nat) (d : CapitulationDetector) : Prop where
  settings : d.settings = new cfg
  ticks : d.ticks = if cfg.enabled then f.stored (fromSecs cfg.windowSecs) n else []
  coherent : d.Coherent

variable {f cfg}

theorem Sound.observed {n : Nat} {d : CapitulationDetector} (h : f.Sound cfg n d) :
    (d.observe (f.time n) (f.value n)).settings = new cfg ∧
      (d.observe (f.time n) (f.value n)).ticks =
        (if cfg.enabled then f.within (fromSecs cfg.windowSecs) n else []) ∧
      (d.observe (f.time n) (f.value n)).Coherent := by
  obtain ⟨settings, ticks⟩ := CapitulationDetector.observe_held h.settings h.ticks
  refine ⟨settings, ticks, ?_⟩
  unfold CapitulationDetector.observe
  split_ifs
  · exact ⟨h.coherent.started, h.coherent.idle, h.coherent.low_pos⟩
  · exact h.coherent

theorem Sound.fresh {n : Nat} {d : CapitulationDetector} (h : f.Sound cfg n d) :
    evictOld (d.observe (f.time n) (f.value n)).window (f.time n)
      (d.observe (f.time n) (f.value n)).ticks = (d.observe (f.time n) (f.value n)).ticks := by
  apply CapitulationDetector.observe_fresh
  intro off
  have same : d.enabled = cfg.enabled := congrArg CapitulationDetector.enabled h.settings
  rw [h.ticks, ← same, off]
  rfl

variable (f cfg)

theorem sound (n : Nat) : f.Sound cfg n (f.detector cfg n) := by
  have held (n : Nat) := CapitulationDetector.state_held f.toFeed cfg n
  refine ⟨(held n).1, (held n).2, ?_⟩
  apply (machine cfg).invariant f.tick (I := fun _ d => d.Coherent)
  · exact ⟨rfl, fun _ => rfl, nofun⟩
  · rintro n d rfl coherent
    have h : f.Sound cfg n (f.detector cfg n) := ⟨(held n).1, (held n).2, coherent⟩
    obtain ⟨-, -, observed⟩ := h.observed
    exact (CapitulationDetector.check_moves observed (f.value_pos n) h.fresh).2

theorem coherent (n : Nat) : (f.detector cfg n).Coherent := (f.sound cfg n).coherent

theorem moves (n : Nat) :
    (f.observed cfg n).Moves (f.time n) (f.value n) (f.detector cfg n).phase
      (f.detector cfg (n + 1)).phase ((f.verdict cfg n).map ReclaimSignal.low) := by
  have h := f.sound cfg n
  obtain ⟨-, -, coherent⟩ := h.observed
  have moved := CapitulationDetector.check_moves coherent (f.value_pos n) h.fresh
  rw [← CapitulationDetector.observe_phase (f.detector cfg n) (f.time n) (f.value n)]
  exact moved.1

theorem observed_threshold (n : Nat) (low : ℚ) :
    (f.observed cfg n).threshold low = low * (1 + cfg.reclaimPct / 100) := by
  have settings := (f.sound cfg n).observed.1
  have same : (f.observed cfg n).reclaimPct = cfg.reclaimPct :=
    congrArg CapitulationDetector.reclaimPct settings
  rw [CapitulationDetector.threshold, same]

theorem observed_due (n : Nat) :
    (f.observed cfg n).due (f.time n) ↔ fromSecs cfg.reclaimConfirmSecs ≤
      f.time n - (f.detector cfg n).reclaimConfirmStarted.getD (f.time n) := by
  have settings := (f.sound cfg n).observed.1
  have same : (f.observed cfg n).reclaimConfirm = fromSecs cfg.reclaimConfirmSecs :=
    congrArg CapitulationDetector.reclaimConfirm settings
  obtain ⟨-, -, confirming, -⟩ :=
    (f.detector cfg n).observe_pending (f.time n) (f.value n)
  rw [CapitulationDetector.due, same, decide_eq_true_eq]
  unfold observed
  rw [confirming]
  rfl

theorem observed_expired (n : Nat) :
    (f.observed cfg n).expired (f.time n) ↔ ∃ started ∈ (f.detector cfg n).pendingStarted,
      fromSecs cfg.pendingExpireSecs < f.time n - started := by
  have settings := (f.sound cfg n).observed.1
  have same : (f.observed cfg n).pendingExpire = fromSecs cfg.pendingExpireSecs :=
    congrArg CapitulationDetector.pendingExpire settings
  obtain ⟨-, started, -, -⟩ := (f.detector cfg n).observe_pending (f.time n) (f.value n)
  rw [CapitulationDetector.expired, same, Option.any_eq_true]
  unfold observed
  rw [started]
  simp only [decide_eq_true_eq]
  rfl

/-- Tick `n` takes the STAGE 1 branch with nothing pending, or only an expired dump. -/
def Begins (n : Nat) : Prop :=
  f.stageOne cfg n ∧ ((f.detector cfg n).phase = .quiet ∨ (f.observed cfg n).expired (f.time n))

/-- The pending state that tick `n` finds was begun by tick `d` and has been kept since. -/
structure Watches (d n : Nat) (low : ℚ) (since : Instant) (c : Option Instant) : Prop where
  lt : d < n
  stamp : f.time d = since
  begins : f.Begins cfg d
  kept : ∀ i, d < i → i ≤ n → (f.detector cfg i).pendingStarted = some since
  least : IsLeast (f.seen (fun i => d ≤ i ∧ f.stageOne cfg i) n) low
  reclaimed : ∀ s ∈ c, ∃ k, d < k ∧ k < n ∧ f.time k = s ∧
    low * (1 + cfg.reclaimPct / 100) ≤ f.value k

variable {f cfg} {d n : Nat} {low : ℚ} {since : Instant} {c : Option Instant}

theorem stageOne_of (judged : (f.observed cfg n).judges (f.time n))
    (dump : (f.observed cfg n).dumped (f.value n)) : f.stageOne cfg n := by
  rw [stageOne, judged, dump]
  rfl

theorem not_stageOne_of_calm (calm : (f.observed cfg n).dumped (f.value n) = false) :
    ¬ f.stageOne cfg n := by
  rw [stageOne, calm, Bool.and_false]
  exact Bool.false_ne_true

theorem not_stageOne_of_shut (shut : (f.observed cfg n).judges (f.time n) = false) :
    ¬ f.stageOne cfg n := by
  rw [stageOne, shut, Bool.false_and]
  exact Bool.false_ne_true

theorem Watches.next (w : f.Watches cfg d n low since c) {low' : ℚ} {c' : Option Instant}
    (still : (f.detector cfg (n + 1)).pendingStarted = some since)
    (least : IsLeast (f.seen (fun i => d ≤ i ∧ f.stageOne cfg i) (n + 1)) low')
    (reclaimed : ∀ s ∈ c', ∃ k, d < k ∧ k < n + 1 ∧ f.time k = s ∧
      low' * (1 + cfg.reclaimPct / 100) ≤ f.value k) :
    f.Watches cfg d (n + 1) low' since c' := by
  refine ⟨w.lt.trans n.lt_succ_self, w.stamp, w.begins, ?_, least, reclaimed⟩
  intro i after upto
  rcases Nat.le_succ_iff.mp upto with before | rfl
  · exact w.kept i after before
  · exact still

theorem Watches.reclaimed_next (w : f.Watches cfg d n low since c) :
    ∀ s ∈ c, ∃ k, d < k ∧ k < n + 1 ∧ f.time k = s ∧
      low * (1 + cfg.reclaimPct / 100) ≤ f.value k := by
  intro s mem
  obtain ⟨k, after, lt, stamp, reached⟩ := w.reclaimed s mem
  exact ⟨k, after, lt.trans n.lt_succ_self, stamp, reached⟩

theorem Watches.least_next (w : f.Watches cfg d n low since c) (calm : ¬ f.stageOne cfg n) :
    IsLeast (f.seen (fun i => d ≤ i ∧ f.stageOne cfg i) (n + 1)) low := by
  apply f.least_kept w.least
  intro here
  exact absurd here.2 calm

/-- Behind every pending state there is the dump that began it. -/
theorem watches (f : PriceFeed) (cfg : CapitulationConfig) (n : Nat) {low : ℚ} {since : Instant}
    {c : Option Instant} (pending : (f.detector cfg n).phase = .pending low since c) :
    ∃ d, f.Watches cfg d n low since c := by
  induction n generalizing low since c with
  | zero => cases pending
  | succ n ih =>
    obtain ⟨-, still, -⟩ := (f.coherent cfg (n + 1)).pending_iff.mp pending
    have step := f.moves cfg n
    rw [pending] at step
    generalize before : (f.detector cfg n).phase = p at step
    generalize (f.verdict cfg n).map ReclaimSignal.low = fired at step
    cases step with
    | ignored shut =>
      obtain ⟨d, w⟩ := ih before
      exact ⟨d, w.next still (w.least_next (not_stageOne_of_shut shut)) w.reclaimed_next⟩
    | begins judged dump idle =>
      have one := stageOne_of judged dump
      rw [← before] at idle
      refine ⟨n, n.lt_succ_self, rfl, ⟨one, idle⟩, ?_, ?_, nofun⟩
      · intro i after upto
        obtain rfl : i = n + 1 := Nat.le_antisymm upto after
        exact still
      · constructor
        · exact ⟨n, n.lt_succ_self, ⟨le_refl n, one⟩, rfl⟩
        · rintro x ⟨i, lt, ⟨le, -⟩, rfl⟩
          obtain rfl : i = n := Nat.le_antisymm (Nat.le_of_lt_succ lt) le
          exact le_refl _
    | deepens judged dump live lower =>
      obtain ⟨d, w⟩ := ih before
      have here : d ≤ n ∧ f.stageOne cfg n := ⟨w.lt.le, stageOne_of judged dump⟩
      exact ⟨d, w.next still (f.least_lowered w.least here lower.le) nofun⟩
    | holds judged dump live above =>
      obtain ⟨d, w⟩ := ih before
      exact ⟨d, w.next still (f.least_kept w.least fun _ => above) w.reclaimed_next⟩
    | relapses judged calm live below =>
      obtain ⟨d, w⟩ := ih before
      exact ⟨d, w.next still (w.least_next (not_stageOne_of_calm calm)) nofun⟩
    | waits judged calm live reached sparse =>
      obtain ⟨d, w⟩ := ih before
      exact ⟨d, w.next still (w.least_next (not_stageOne_of_calm calm)) w.reclaimed_next⟩
    | confirms judged calm live reached enough early =>
      obtain ⟨d, w⟩ := ih before
      refine ⟨d, w.next still (w.least_next (not_stageOne_of_calm calm)) ?_⟩
      rw [f.observed_threshold] at reached
      intro s mem
      cases mem
      cases running : (f.observed cfg n).reclaimConfirmStarted with
      | none => exact ⟨n, w.lt, n.lt_succ_self, rfl, reached⟩
      | some s => exact w.reclaimed_next s running

end PriceFeed

end HadesPsTrader.Market
