/- Module: HadesPsTrader/Market/CapitulationPhases
   source: src/capitulation.rs
   digest: The phases of the reclaim detector, and everything one check can do to them. -/

import Mathlib.Tactic.Linarith
import Mathlib.Tactic.FieldSimp
import HadesPsTrader.Market.Capitulation

set_option autoImplicit false
set_option relaxedAutoImplicit false

namespace HadesPsTrader.Market

/-- What the detector waits for: a dump, or the confirmed reclaim of one. -/
inductive Phase
  | quiet
  | pending (low : ℚ) (since : Instant) (confirming : Option Instant)
  deriving DecidableEq

def Phase.confirming : Phase → Option Instant
  | .quiet => none
  | .pending _ _ c => c

namespace CapitulationDetector

/-- The gates before the stages: the debounce is over and the window is full. -/
def judges (d : CapitulationDetector) (now : Instant) : Bool :=
  d.enabled && (d.lastFire.all fun t => d.debounce ≤ durationSince now t) &&
    d.ticks.head?.any fun oldest =>
      d.window - fromSecs 1 ≤ durationSince now oldest.1 && 0 < oldest.2

def dumped (d : CapitulationDetector) (price : ℚ) : Bool :=
  d.ticks.head?.any fun oldest => (price / oldest.2 - 1) * 100 ≤ -d.dipPct

def expired (d : CapitulationDetector) (now : Instant) : Bool :=
  d.pendingStarted.any fun started => d.pendingExpire < durationSince now started

def threshold (d : CapitulationDetector) (low : ℚ) : ℚ := low * (1 + d.reclaimPct / 100)

def due (d : CapitulationDetector) (now : Instant) : Bool :=
  d.reclaimConfirm ≤ durationSince now (d.reclaimConfirmStarted.getD now)

def phase (d : CapitulationDetector) : Phase :=
  match d.pendingLow, d.pendingStarted with
  | some low, some since => .pending low since d.reclaimConfirmStarted
  | _, _ => .quiet

/-- The optional fields of a detector agree with each other. -/
structure Coherent (d : CapitulationDetector) : Prop where
  started : d.pendingStarted.isSome = d.pendingLow.isSome
  idle : d.pendingLow = none → d.reclaimConfirmStarted = none
  low_pos : ∀ low ∈ d.pendingLow, 0 < low

theorem Coherent.cases {d : CapitulationDetector} (h : d.Coherent) :
    (d.pendingLow = none ∧ d.pendingStarted = none ∧ d.reclaimConfirmStarted = none ∧
        d.phase = .quiet) ∨
      ∃ low since, d.pendingLow = some low ∧ d.pendingStarted = some since ∧ 0 < low ∧
        d.phase = .pending low since d.reclaimConfirmStarted := by
  obtain ⟨started, idle, low_pos⟩ := h
  cases hl : d.pendingLow with
  | none =>
    have hs : d.pendingStarted = none := by
      rw [hl] at started
      exact Option.isNone_iff_eq_none.mp (by rw [← Option.not_isSome, started]; rfl)
    exact .inl ⟨rfl, hs, idle hl, by rw [phase, hl]⟩
  | some low =>
    rw [hl] at started
    obtain ⟨since, hs⟩ := Option.isSome_iff_exists.mp started
    exact .inr ⟨low, since, rfl, hs, low_pos low hl, by rw [phase, hl, hs]⟩

theorem Coherent.quiet_iff {d : CapitulationDetector} (h : d.Coherent) :
    d.phase = .quiet ↔ d.pendingLow = none := by
  rcases h.cases with ⟨hl, -, -, hp⟩ | ⟨low, since, hl, -, -, hp⟩
  · simp [hl, hp]
  · simp [hl, hp]

theorem Coherent.pending_iff {d : CapitulationDetector} (h : d.Coherent) {low : ℚ}
    {since : Instant} {c : Option Instant} :
    d.phase = .pending low since c ↔
      d.pendingLow = some low ∧ d.pendingStarted = some since ∧ d.reclaimConfirmStarted = c := by
  rcases h.cases with ⟨hl, hs, hc, hp⟩ | ⟨low', since', hl, hs, -, hp⟩
  · simp [hl, hp]
  · simp [hl, hs, hp]

theorem Coherent.confirming {d : CapitulationDetector} (h : d.Coherent) :
    d.reclaimConfirmStarted = d.phase.confirming := by
  rcases h.cases with ⟨-, -, hc, hp⟩ | ⟨low, since, -, -, -, hp⟩
  · rw [hc, hp]
    rfl
  · rw [hp]
    rfl

/-- Everything one judged or ignored tick does to the phase; the last index is the low of a fire. -/
inductive Moves (d : CapitulationDetector) (now : Instant) (price : ℚ) :
    Phase → Phase → Option ℚ → Prop
  /-- A gate is shut. -/
  | ignored {p : Phase} (shut : d.judges now = false) : Moves d now price p p none
  /-- STAGE 1, nothing pending: the dump is recorded. -/
  | begins {p : Phase} (judged : d.judges now) (dump : d.dumped price)
      (idle : p = .quiet ∨ d.expired now) : Moves d now price p (.pending price now none) none
  /-- STAGE 1 with a new low. -/
  | deepens {low : ℚ} {since : Instant} {c : Option Instant} (judged : d.judges now)
      (dump : d.dumped price) (live : d.expired now = false) (lower : price < low) :
      Moves d now price (.pending low since c) (.pending price since none) none
  /-- STAGE 1 without a new low. -/
  | holds {low : ℚ} {since : Instant} {c : Option Instant} (judged : d.judges now)
      (dump : d.dumped price) (live : d.expired now = false) (above : low ≤ price) :
      Moves d now price (.pending low since c) (.pending low since c) none
  /-- No dump and nothing pending. -/
  | rests {p : Phase} (judged : d.judges now) (calm : d.dumped price = false)
      (idle : p = .quiet ∨ d.expired now) : Moves d now price p .quiet none
  /-- STAGE 2 below the threshold. -/
  | relapses {low : ℚ} {since : Instant} {c : Option Instant} (judged : d.judges now)
      (calm : d.dumped price = false) (live : d.expired now = false)
      (below : price < d.threshold low) :
      Moves d now price (.pending low since c) (.pending low since none) none
  /-- STAGE 2 with too few ticks. -/
  | waits {low : ℚ} {since : Instant} {c : Option Instant} (judged : d.judges now)
      (calm : d.dumped price = false) (live : d.expired now = false)
      (reached : d.threshold low ≤ price)
      (sparse : d.ticks.length < Capitulation.minTicksForFire) :
      Moves d now price (.pending low since c) (.pending low since c) none
  /-- STAGE 2 while the confirmation runs. -/
  | confirms {low : ℚ} {since : Instant} (judged : d.judges now)
      (calm : d.dumped price = false) (live : d.expired now = false)
      (reached : d.threshold low ≤ price)
      (enough : Capitulation.minTicksForFire ≤ d.ticks.length) (early : d.due now = false) :
      Moves d now price (.pending low since d.reclaimConfirmStarted)
        (.pending low since (some (d.reclaimConfirmStarted.getD now))) none
  /-- STAGE 2, confirmed. -/
  | fires {low : ℚ} {since : Instant} (judged : d.judges now)
      (calm : d.dumped price = false) (live : d.expired now = false)
      (reached : d.threshold low ≤ price)
      (enough : Capitulation.minTicksForFire ≤ d.ticks.length) (confirmed : d.due now) :
      Moves d now price (.pending low since d.reclaimConfirmStarted) .quiet (some low)

variable {d : CapitulationDetector} {now : Instant} {price : ℚ}

private theorem evict_fresh (fresh : evictOld d.window now d.ticks = d.ticks) :
    { d with ticks := evictOld d.window now d.ticks } = d := by
  rw [fresh]

theorem expirePending_dipPct (d : CapitulationDetector) (now : Instant) :
    (d.expirePending now).dipPct = d.dipPct := by
  unfold expirePending
  split
  · split_ifs <;> rfl
  · rfl

theorem debounced_eq (d : CapitulationDetector) (now : Instant) :
    (d.lastFire.all fun t => d.debounce ≤ durationSince now t) =
      !(d.lastFire.any fun t => durationSince now t < d.debounce) := by
  cases d.lastFire with
  | none => rfl
  | some t =>
    rw [Option.all_some, Option.any_some, ← decide_not]
    simp only [not_lt]

theorem check_cases (fresh : evictOld d.window now d.ticks = d.ticks) (price : ℚ) :
    (d.judges now = false ∧ d.check now price = (d, none)) ∨
    (d.judges now ∧ d.dumped price ∧
      d.check now price = ((d.expirePending now).recordLow now price, none)) ∨
    (d.judges now ∧ d.dumped price = false ∧
      ∃ dumpPct, d.check now price = (d.expirePending now).confirmReclaim now price dumpPct) := by
  unfold check judges
  simp only [evict_fresh fresh, expirePending_dipPct]
  rw [fresh]
  -- the literal number of nanoseconds stays out of the comparisons below
  obtain ⟨needed, fixed⟩ : ∃ needed, d.window - fromSecs 1 = needed := ⟨_, rfl⟩
  rw [fixed]
  by_cases on : d.enabled = true
  case neg =>
    left
    constructor
    · rw [Bool.eq_false_iff.mpr on, Bool.false_and, Bool.false_and]
    · rw [if_pos (by rw [Bool.eq_false_iff.mpr on]; rfl)]
  rw [if_neg (by rw [on]; exact Bool.false_ne_true)]
  have passed := d.debounced_eq now
  by_cases cooling : (d.lastFire.any fun t => durationSince now t < d.debounce) = true
  · left
    constructor
    · rw [passed, cooling, Bool.not_true, Bool.and_false, Bool.false_and]
    · rw [if_pos cooling]
  rw [if_neg cooling]
  rw [on, passed, Bool.eq_false_iff.mpr cooling, Bool.not_false, Bool.true_and, Bool.true_and,
    dumped]
  cases d.ticks.head? with
  | none => exact .inl ⟨rfl, rfl⟩
  | some first =>
    obtain ⟨oldestTs, oldestPrice⟩ := first
    simp only [Option.any_some, Bool.and_eq_true, decide_eq_true_eq, Bool.and_eq_false_iff,
      decide_eq_false_iff_not]
    by_cases young : durationSince now oldestTs < needed
    · left
      rw [if_pos young]
      exact ⟨.inl (not_le.mpr young), rfl⟩
    by_cases bad : oldestPrice ≤ 0
    · left
      rw [if_neg young, if_pos bad]
      exact ⟨.inr (not_lt.mpr bad), rfl⟩
    rw [if_neg young, if_neg bad]
    have judged : needed ≤ durationSince now oldestTs ∧ 0 < oldestPrice :=
      ⟨not_lt.mp young, not_le.mp bad⟩
    right
    by_cases dump : (price / oldestPrice - 1) * 100 ≤ -d.dipPct
    · rw [if_pos dump]
      exact .inl ⟨judged, dump, rfl⟩
    · rw [if_neg dump]
      exact .inr ⟨judged, dump, (price / oldestPrice - 1) * 100, rfl⟩

theorem expirePending_cases (d : CapitulationDetector) (now : Instant) :
    (d.expired now = false ∧ d.expirePending now = d) ∨
      (d.expired now ∧ d.expirePending now = d.resetPending) := by
  rw [expired, expirePending]
  cases d.pendingStarted with
  | none => exact .inl ⟨rfl, rfl⟩
  | some started =>
    by_cases old : d.pendingExpire < durationSince now started
    · right
      exact ⟨decide_eq_true old, if_pos old⟩
    · left
      exact ⟨decide_eq_false old, if_neg old⟩

theorem resetPending_coherent (d : CapitulationDetector) : d.resetPending.Coherent :=
  ⟨rfl, fun _ => rfl, nofun⟩

theorem recordLow_moves (h : d.Coherent) (positive : 0 < price) (judged : d.judges now)
    (dump : d.dumped price) :
    Moves d now price d.phase ((d.expirePending now).recordLow now price).phase none ∧
      ((d.expirePending now).recordLow now price).Coherent := by
  rcases d.expirePending_cases now with ⟨live, same⟩ | ⟨old, cleared⟩
  · rw [same]
    rcases h.cases with ⟨hl, -, -, hp⟩ | ⟨low, since, hl, hs, low_pos, hp⟩
    · have recorded : d.recordLow now price = { d with
          pendingLow := some price, pendingStarted := some now,
          reclaimConfirmStarted := none } := by
        rw [recordLow, hl]
      rw [recorded]
      refine ⟨.begins judged dump (.inl hp), rfl, nofun, ?_⟩
      intro low mem
      cases mem
      exact positive
    · by_cases lower : price < low
      · have recorded : d.recordLow now price =
            { d with pendingLow := some price, reclaimConfirmStarted := none } := by
          rw [recordLow, hl]
          exact if_pos lower
        have moved : (d.recordLow now price).phase = .pending price since none := by
          rw [recorded, phase]
          simp only [hs]
        rw [moved, hp]
        refine ⟨.deepens judged dump live lower, ?_⟩
        rw [recorded]
        refine ⟨by simp only [hs, Option.isSome_some], nofun, ?_⟩
        intro low' mem
        cases mem
        exact positive
      · have recorded : d.recordLow now price = d := by
          rw [recordLow, hl]
          exact if_neg lower
        rw [recorded, hp]
        exact ⟨.holds judged dump live (not_lt.mp lower), h⟩
  · have recorded : (d.expirePending now).recordLow now price = { d with
        pendingLow := some price, pendingStarted := some now,
        reclaimConfirmStarted := none } := by
      rw [cleared]
      rfl
    rw [recorded]
    refine ⟨.begins judged dump (.inr old), rfl, nofun, ?_⟩
    intro low mem
    cases mem
    exact positive

theorem relapsed_iff {low : ℚ} (low_pos : 0 < low) :
    d.relapsed price low = true ↔ price < d.threshold low := by
  have cleared : (price / low - 1) * 100 < d.reclaimPct ↔
      price / low < 1 + d.reclaimPct / 100 := by
    constructor
    · intro below
      linarith
    · intro below
      linarith
  rw [d.relapsed_of_ne price low_pos.ne', decide_eq_true_eq, cleared, div_lt_iff₀ low_pos,
    threshold, mul_comm]

private theorem confirmReclaim_pending {low : ℚ} (hl : d.pendingLow = some low)
    (low_pos : 0 < low) (dumpPct : ℚ) : d.confirmReclaim now price dumpPct =
      if price < d.threshold low then ({ d with reclaimConfirmStarted := none }, none)
      else if d.ticks.length < Capitulation.minTicksForFire then (d, none)
      else if durationSince now (d.reclaimConfirmStarted.getD now) < d.reclaimConfirm then
        ({ d with reclaimConfirmStarted := some (d.reclaimConfirmStarted.getD now) }, none)
      else ({ d with lastFire := some now }.resetPending,
        some ⟨low, price, reclaimPctNow price low, -dumpPct, asSecs d.window⟩) := by
  unfold confirmReclaim
  split
  · rename_i none
    rw [hl] at none
    cases none
  · rename_i low' some
    rw [hl] at some
    cases some
    simp only [relapsed_iff low_pos]
    rfl

theorem confirmReclaim_moves (h : d.Coherent) (judged : d.judges now)
    (calm : d.dumped price = false) (dumpPct : ℚ) :
    Moves d now price d.phase ((d.expirePending now).confirmReclaim now price dumpPct).1.phase
        (((d.expirePending now).confirmReclaim now price dumpPct).2.map ReclaimSignal.low) ∧
      ((d.expirePending now).confirmReclaim now price dumpPct).1.Coherent := by
  rcases d.expirePending_cases now with ⟨live, same⟩ | ⟨old, cleared⟩
  · rw [same]
    rcases h.cases with ⟨hl, -, -, hp⟩ | ⟨low, since, hl, hs, low_pos, hp⟩
    · have rested : d.confirmReclaim now price dumpPct = (d, none) := by
        rw [confirmReclaim, hl]
      rw [rested, hp]
      exact ⟨.rests judged calm (.inl rfl), h⟩
    rw [confirmReclaim_pending hl low_pos, hp]
    by_cases below : price < d.threshold low
    · rw [if_pos below]
      have moved : ({ d with reclaimConfirmStarted := none } : CapitulationDetector).phase =
          .pending low since none := by
        simp only [phase, hl, hs]
      rw [moved]
      exact ⟨.relapses judged calm live below, h.started, fun _ => rfl, h.low_pos⟩
    have reached : d.threshold low ≤ price := not_lt.mp below
    rw [if_neg below]
    by_cases sparse : d.ticks.length < Capitulation.minTicksForFire
    · rw [if_pos sparse, hp]
      exact ⟨.waits judged calm live reached sparse, h⟩
    have enough : Capitulation.minTicksForFire ≤ d.ticks.length := not_lt.mp sparse
    rw [if_neg sparse]
    by_cases early : durationSince now (d.reclaimConfirmStarted.getD now) < d.reclaimConfirm
    · rw [if_pos early]
      have running : d.due now = false := decide_eq_false (not_le.mpr early)
      have moved : ({ d with
          reclaimConfirmStarted := some (d.reclaimConfirmStarted.getD now) } :
            CapitulationDetector).phase =
          .pending low since (some (d.reclaimConfirmStarted.getD now)) := by
        simp only [phase, hl, hs]
      rw [moved]
      refine ⟨.confirms judged calm live reached enough running, h.started, ?_, h.low_pos⟩
      intro empty
      rw [hl] at empty
      cases empty
    · rw [if_neg early]
      have confirmed : d.due now := decide_eq_true (not_lt.mp early)
      exact ⟨.fires judged calm live reached enough confirmed, resetPending_coherent _⟩
  · have rested : (d.expirePending now).confirmReclaim now price dumpPct =
        (d.resetPending, none) := by
      rw [cleared]
      rfl
    rw [rested]
    exact ⟨.rests judged calm (.inr old), resetPending_coherent d⟩

theorem check_moves (h : d.Coherent) (positive : 0 < price)
    (fresh : evictOld d.window now d.ticks = d.ticks) :
    Moves d now price d.phase (d.check now price).1.phase
        ((d.check now price).2.map ReclaimSignal.low) ∧
      (d.check now price).1.Coherent := by
  rcases check_cases fresh price with
    ⟨shut, done⟩ | ⟨judged, dump, done⟩ | ⟨judged, calm, dumpPct, done⟩
  · rw [done]
    exact ⟨.ignored shut, h⟩
  · rw [done]
    exact recordLow_moves h positive judged dump
  · rw [done]
    exact confirmReclaim_moves h judged calm dumpPct

end CapitulationDetector

end HadesPsTrader.Market
