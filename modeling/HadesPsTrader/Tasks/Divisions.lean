/- Module: HadesPsTrader/Tasks/Divisions
   source: src/session.rs, src/copy_session.rs, src/pumpswap.rs
   digest: The divisions of the decisions over whole sequences of pool reads. -/

import HadesPsTrader.Chain.PoolReads
import HadesPsTrader.Market.Ratios
import HadesPsTrader.Market.RugRule
import HadesPsTrader.Tasks.CopySession

set_option autoImplicit false
set_option relaxedAutoImplicit false

namespace HadesPsTrader.Tasks

open Interaction Market Chain

def Copy.pnlPctDividing (entry current : ℚ) : Dividing ℚ :=
  if entry ≤ 0 then .ok 0
  else do
    let gain ← ratio (current - entry) entry
    return gain * 100

theorem Copy.pnlPctDividing_eq (entry current : ℚ) :
    Copy.pnlPctDividing entry current = .ok (Copy.pnlPct entry current) := by
  rw [Copy.pnlPctDividing, Copy.pnlPct]
  split
  · rfl
  · next priced => exact ratio_bind (not_le.mp priced).ne' _

/-- The pool states that the reads of one session return, tick by tick. -/
structure PoolFeed extends Feed PoolState where
  readable : ∀ n, Readable (tick n).2

namespace PoolFeed

variable (f : PoolFeed) (cfg : Config) (sessionStart : Instant)

def prices : Feed ℚ where
  tick n := (f.time n, (f.value n).priceSol)
  ordered := f.ordered

def dips : Feed DipTick where
  tick n := (f.time n, ⟨(f.value n).priceSol, (f.value n).poolSol⟩)
  ordered := f.ordered

def rugGuard (n : Nat) : RugGuard :=
  .after ((List.range (n + 1)).map fun i => ((f.value i).priceSol, (f.value i).poolSol))

/-- The reclaim detector that tick `n` finds, where no division before was by zero. -/
def capDetector (n : Nat) : Dividing CapitulationDetector :=
  (CapitulationDetector.guarded cfg.capitulation).state f.prices.tick n

def dipBuyDetector (n : Nat) : Dividing DipBuyDetector :=
  (DipBuyDetector.guarded cfg.dipBuy sessionStart).state f.dips.tick n

/-- Up to tick `n` no decision divides by zero, whatever position is open. -/
structure Divides (n : Nat) : Prop where
  rug : ∃ reason, (f.rugGuard n).isRuggedDividing cfg.rug (f.value n).priceSol
    (f.value n).poolSol = .ok reason
  capitulation : ∃ d, f.capDetector cfg (n + 1) = .ok d
  dipBuy : ∃ d, f.dipBuyDetector cfg sessionStart (n + 1) = .ok d
  pnl : ∀ pos : Position, ∃ pct, pos.pnlPctDividing (f.value n).priceSol = .ok pct
  copyPnl : ∀ entry, ∃ pct, Copy.pnlPctDividing entry (f.value n).priceSol = .ok pct

/-- At tick `n` the reclaim detector compares the price with a pending low of zero. -/
def ReclaimsZero (n : Nat) : Prop :=
  ∃ d, f.capDetector cfg n = .ok d ∧
    (d.observe (f.time n) (f.value n).priceSol).reclaimsZero (f.time n) (f.value n).priceSol

variable {f cfg} {n : Nat}

theorem capDetector_defined_iff :
    (∀ n, ∃ d, f.capDetector cfg n = .ok d) ↔ ∀ n, ¬ f.ReclaimsZero cfg n := by
  constructor
  · rintro reached n ⟨d, here, zero⟩
    exact Guarded.forall_defined_iff.mp reached n d here zero
  · intro calm
    exact Guarded.forall_defined_iff.mpr fun n d here zero => calm n ⟨d, here, zero⟩

theorem divides_of_defined (sessionStart : Instant)
    (reached : ∃ d, f.capDetector cfg (n + 1) = .ok d) : f.Divides cfg sessionStart n where
  rug := ⟨_, RugGuard.isRuggedDividing_eq _ _ _ _⟩
  capitulation := reached
  dipBuy := Guarded.forall_defined_iff.mpr (fun _ _ _ => trivial) (n + 1)
  pnl := fun pos => ⟨_, pos.pnlPctDividing_eq _⟩
  copyPnl := fun entry => ⟨_, Copy.pnlPctDividing_eq entry _⟩

theorem ReclaimsZero.emptied (zero : f.ReclaimsZero cfg n) :
    cfg.capitulation.enabled ∧ ∃ i < n, (f.value i).poolSol = 0 := by
  obtain ⟨d, here, zero⟩ := zero
  obtain ⟨rfl, -⟩ := Guarded.state_eq_ok_iff.mp here
  obtain ⟨on, pending⟩ := CapitulationDetector.reclaimsZero_spec zero
  rw [CapitulationDetector.observe_enabled] at on
  rw [(CapitulationDetector.observe_pending _ _ _).1] at pending
  have settings := (CapitulationDetector.state_held f.prices cfg.capitulation n).1
  obtain ⟨i, lt, price⟩ := CapitulationDetector.pendingLow_seen f.prices cfg.capitulation n pending
  refine ⟨?_, i, lt, (f.readable i).priceSol_eq_zero_iff.mp price⟩
  exact (congrArg CapitulationDetector.enabled settings).symm.trans on

/-- With the detector off, or liquidity at every read, no decision divides by zero. -/
theorem divides_of_liquid (sessionStart : Instant)
    (safe : cfg.capitulation.enabled = false ∨ ∀ n, (f.value n).poolSol ≠ 0) (n : Nat) :
    f.Divides cfg sessionStart n := by
  refine divides_of_defined sessionStart (capDetector_defined_iff.mpr ?_ (n + 1))
  intro k zero
  obtain ⟨on, i, -, empty⟩ := zero.emptied
  rcases safe with off | liquid
  · rw [on] at off
    cases off
  · exact liquid i empty

/-- No decision ever divides by zero exactly when no reclaim is measured from a low of zero. -/
theorem divides_iff (f : PoolFeed) (cfg : Config) (sessionStart : Instant) :
    (∀ n, f.Divides cfg sessionStart n) ↔ ∀ n, ¬ f.ReclaimsZero cfg n := by
  rw [← capDetector_defined_iff]
  constructor
  · intro divides n
    cases n with
    | zero => exact ⟨_, rfl⟩
    | succ n => exact (divides n).capitulation
  · intro reached n
    exact divides_of_defined sessionStart (reached (n + 1))

end PoolFeed

/-- A session of 100 ms ticks; the second read finds the quote vault empty. -/
def emptiedOnce : PoolFeed where
  tick n := (100000000 * n, .ofAmounts (if n = 1 then 0 else 1000000000) 1000000)
  ordered := fun _ _ le => Nat.mul_le_mul_left _ le
  readable := by
    intro n
    refine (readable_iff _).mpr ⟨_, _, ?_, by decide, by decide, rfl⟩
    split
    · decide
    · decide

def oneSecondWindow : Config where
  trading := ⟨10, 1, 0, 40, 25, 3, 2, 2, 3600, 900, "20:6"⟩
  macd := ⟨60, 12, 26, 9, 60⟩
  capitulation := { enabled := true, windowSecs := 1 }

theorem divides_fails_emptied : ¬ ∀ n, emptiedOnce.Divides oneSecondWindow 0 n := by
  intro divides
  obtain ⟨d, third⟩ := (divides 2).capitulation
  obtain ⟨-, safe⟩ := Guarded.state_eq_ok_iff.mp third
  exact safe 2 (by decide) (by decide +kernel)

end HadesPsTrader.Tasks
