/- Module: HadesPsTrader/Market/DipBuyRuns
   source: src/dip_buy.rs
   digest: The dip-buy detector fed tick by tick fires exactly on its documented criteria. -/

import Mathlib.Data.List.Induction
import Mathlib.Tactic.Linarith
import HadesPsTrader.Interaction.Extremes
import HadesPsTrader.Interaction.Machine
import HadesPsTrader.Market.DipBuy
import HadesPsTrader.Market.TickWindow

set_option autoImplicit false
set_option relaxedAutoImplicit false

open HadesPsTrader.Interaction

namespace HadesPsTrader.Market

namespace DipBuyDetector

def holding (cfg : DipBuyConfig) (sessionStart : Instant) (ticks : List (Instant × DipTick))
    (last : Option Instant) : DipBuyDetector :=
  { new cfg sessionStart with ticks := ticks, lastFire := last }

theorem observe_holding (cfg : DipBuyConfig) (sessionStart : Instant)
    (ticks : List (Instant × DipTick)) (last : Option Instant) (t : Instant × DipTick) :
    (holding cfg sessionStart ticks last).observe t.1 t.2.price t.2.poolSol =
      holding cfg sessionStart
        (if cfg.enabled then evictOld (fromSecs cfg.windowSecs) t.1 ticks ++ [t] else ticks)
        last := by
  by_cases on : cfg.enabled = true
  · rw [if_pos on, observe]
    exact if_pos on
  · rw [if_neg on, observe]
    exact if_neg on

theorem check_memory (d : DipBuyDetector) (now : Instant) :
    (d.check now).1 = { d with
      lastFire := ((d.check now).2.map fun _ => now).or d.lastFire } := by
  unfold check
  split_ifs
  · rfl
  · rfl
  · rfl
  · cases d.signal now <;> rfl

theorem check_isSome_iff (d : DipBuyDetector) (now : Instant) :
    (d.check now).2.isSome ↔ d.enabled ∧ (∀ t ∈ d.lastFire, d.cooldown ≤ now - t) ∧
      (asSecs (now - d.sessionStart) ≤ d.maxSessionAgeSecs ∨ d.maxSessionAgeSecs = 0) ∧
      (d.signal now).isSome := by
  unfold check
  by_cases on : d.enabled = true
  case neg => simp [on]
  rw [if_neg (by simp [on])]
  by_cases cooling : (d.lastFire.any fun t => durationSince now t < d.cooldown) = true
  · rw [if_pos cooling]
    rw [Option.any_eq_true] at cooling
    obtain ⟨t, last, early⟩ := cooling
    rw [decide_eq_true_eq] at early
    constructor
    · intro none
      cases none
    · rintro ⟨-, cooled, -⟩
      exact absurd early (not_lt.mpr (cooled t last))
  rw [if_neg cooling]
  have cooled : ∀ t ∈ d.lastFire, d.cooldown ≤ now - t := by
    intro t last
    rw [last, Option.any_some, decide_eq_true_eq] at cooling
    exact not_lt.mp cooling
  by_cases aged : 0 < d.maxSessionAgeSecs ∧
      d.maxSessionAgeSecs < asSecs (durationSince now d.sessionStart)
  · rw [if_pos aged]
    constructor
    · intro none
      cases none
    · rintro ⟨-, -, young | unlimited, -⟩
      · exact absurd aged.2 (not_lt.mpr young)
      · exact absurd unlimited aged.1.ne'
  rw [if_neg aged]
  have young : asSecs (now - d.sessionStart) ≤ d.maxSessionAgeSecs ∨
      d.maxSessionAgeSecs = 0 := by
    rcases Nat.eq_zero_or_pos d.maxSessionAgeSecs with unlimited | limited
    · exact .inr unlimited
    · exact .inl (not_lt.mp fun late => aged ⟨limited, late⟩)
  cases d.signal now with
  | none => simp
  | some reason =>
    constructor
    · intro _
      exact ⟨on, cooled, young, rfl⟩
    · intro _
      rfl

theorem minRecent_isLeastOf (cutoff : Option Instant) (value : DipTick → ℚ)
    (ticks : List (Instant × DipTick)) :
    IsLeastOf {x | ∃ t ∈ ticks, (cutoff.all fun c => c ≤ t.1) ∧ value t.2 = x}
      (minRecent cutoff value ticks) := by
  induction ticks using List.reverseRecOn with
  | nil =>
    have none_seen : {x | ∃ t ∈ ([] : List (Instant × DipTick)),
        (cutoff.all fun c => c ≤ t.1) ∧ value t.2 = x} = ∅ := by simp
    rw [none_seen]
    exact isLeastOf_empty
  | append_singleton ticks t ih =>
    rw [minRecent, List.foldl_append, List.foldl_cons, List.foldl_nil, ← minRecent]
    by_cases recent : (cutoff.all fun c => c ≤ t.1) = true
    · have seen : {x | ∃ u ∈ ticks ++ [t], (cutoff.all fun c => c ≤ u.1) ∧ value u.2 = x} =
          insert (value t.2)
            {x | ∃ u ∈ ticks, (cutoff.all fun c => c ≤ u.1) ∧ value u.2 = x} := by
        ext x
        constructor
        · rintro ⟨u, mem, young, rfl⟩
          rcases List.mem_append.mp mem with earlier | last
          · exact .inr ⟨u, earlier, young, rfl⟩
          · cases List.mem_singleton.mp last
            exact .inl rfl
        · rintro (rfl | ⟨u, mem, young, rfl⟩)
          · exact ⟨t, List.mem_append_right _ (List.mem_singleton_self t), recent, rfl⟩
          · exact ⟨u, List.mem_append_left _ mem, young, rfl⟩
      rw [seen, recent, Bool.true_and]
      exact ih.insert (value t.2)
    · have seen : {x | ∃ u ∈ ticks ++ [t], (cutoff.all fun c => c ≤ u.1) ∧ value u.2 = x} =
          {x | ∃ u ∈ ticks, (cutoff.all fun c => c ≤ u.1) ∧ value u.2 = x} := by
        ext x
        constructor
        · rintro ⟨u, mem, young, rfl⟩
          rcases List.mem_append.mp mem with earlier | last
          · exact ⟨u, earlier, young, rfl⟩
          · cases List.mem_singleton.mp last
            exact absurd young recent
        · rintro ⟨u, mem, young, rfl⟩
          exact ⟨u, List.mem_append_left _ mem, young, rfl⟩
      rw [seen, Bool.eq_false_iff.mpr recent, Bool.false_and, if_neg Bool.false_ne_true]
      exact ih

/-- The entry has bounced off the least value of the last `secs` seconds. -/
def Bounced (now : Instant) (secs : Nat) (pct : ℚ) (value : DipTick → ℚ) (entry : ℚ)
    (ticks : List (Instant × DipTick)) : Prop :=
  ∃ least, IsLeast {x | ∃ t ∈ ticks, now - t.1 ≤ fromSecs secs ∧ value t.2 = x} least ∧
    (1 + pct) * least ≤ entry

theorem cutoff_iff (now ts : Instant) (span : Duration) :
    ((if span ≤ now then some (now - span) else none).all fun c => c ≤ ts) = true ↔
      now - ts ≤ span := by
  by_cases old : span ≤ now
  · rw [if_pos old, Option.all_some, decide_eq_true_eq, Nat.sub_le_iff_le_add,
      Nat.sub_le_iff_le_add, Nat.add_comm]
  · rw [if_neg old, Option.all_none]
    have young : now - ts ≤ span := (Nat.sub_le now ts).trans (not_le.mp old).le
    simp [young]

theorem recovered_iff {now : Instant} {ticks : List (Instant × DipTick)} {last : DipTick}
    (here : (now, last) ∈ ticks) (secs : Nat) (pct : ℚ) (value : DipTick → ℚ) (entry : ℚ) :
    recovered now secs pct value entry ticks = true ↔
      secs = 0 ∨ Bounced now secs pct value entry ticks := by
  rcases Nat.eq_zero_or_pos secs with off | on
  · simp [recovered, off]
  have least := minRecent_isLeastOf
    (if fromSecs secs ≤ now then some (now - fromSecs secs) else none) value ticks
  simp only [cutoff_iff] at least
  rw [recovered, if_pos on]
  cases recent : minRecent
      (if fromSecs secs ≤ now then some (now - fromSecs secs) else none) value ticks with
  | none =>
    exfalso
    have seen : value last ∈
        {x | ∃ t ∈ ticks, now - t.1 ≤ fromSecs secs ∧ value t.2 = x} := by
      refine ⟨(now, last), here, ?_, rfl⟩
      rw [Nat.sub_self]
      exact Nat.zero_le _
    rw [least.1 recent] at seen
    exact seen
  | some m =>
    have lowest := least.2 m recent
    simp only [recent, Option.all_some, decide_eq_true_eq]
    constructor
    · intro above
      exact .inr ⟨m, lowest, by rw [mul_comm]; exact above⟩
    · rintro (off | ⟨m', lowest', above⟩)
      · exact absurd off on.ne'
      · rw [lowest.unique lowest', mul_comm]
        exact above

/-- The dip of the window: its extremes, and the entry measured against them. -/
structure Dip (cfg : DipBuyConfig) (unlimited : Prop) (entry : DipTick)
    (ticks : List (Instant × DipTick)) (maxPrice minPrice maxPoolSol : ℚ) : Prop where
  highest : IsGreatest {x | ∃ t ∈ ticks, t.2.price = x} maxPrice
  lowest : IsLeast {x | ∃ t ∈ ticks, t.2.price = x} minPrice
  fullest : IsGreatest {x | ∃ t ∈ ticks, t.2.poolSol = x} maxPoolSol
  price_pos : 0 < maxPrice
  pool_pos : 0 < maxPoolSol
  spread : f64Epsilon ≤ maxPrice - minPrice
  drawdown : cfg.minDrawdownPct ≤ (maxPrice - entry.price) / maxPrice
  quantile : (entry.price - minPrice) / (maxPrice - minPrice) ≤ cfg.maxEntryQuantile
  drained : cfg.minPoolSolDrawdownPct ≤ (maxPoolSol - entry.poolSol) / maxPoolSol
  alive : (maxPoolSol - entry.poolSol) / maxPoolSol ≤ cfg.maxPoolSolDrawdownPct ∨ unlimited

/-- The criteria on the ticks of the window, the last of which is the entry. -/
structure Meets (cfg : DipBuyConfig) (unlimited : Prop) (now : Instant) (entry : DipTick)
    (ticks : List (Instant × DipTick)) : Prop where
  enough : 5 ≤ ticks.length
  full : ∃ oldest ∈ ticks.head?, fromSecs cfg.windowSecs - fromSecs 1 ≤ now - oldest.1
  mature : cfg.minPoolSol ≤ entry.poolSol
  dip : ∃ maxPrice minPrice maxPoolSol, Dip cfg unlimited entry ticks maxPrice minPrice maxPoolSol
  pool : cfg.poolRecoverySecs = 0 ∨ Bounced now cfg.poolRecoverySecs cfg.poolRecoveryPct
    DipTick.poolSol entry.poolSol ticks
  price : cfg.priceRecoverySecs = 0 ∨ Bounced now cfg.priceRecoverySecs cfg.priceRecoveryPct
    DipTick.price entry.price ticks

theorem f64Max_pos : 0 < f64Max := by
  unfold f64Max
  positivity

theorem folds_eq {ticks : List (Instant × DipTick)} (some : ticks ≠ [])
    (bounded : ∀ t ∈ ticks, t.2.price ≤ f64Max) :
    ∃ maxPrice minPrice maxPoolSol,
      IsGreatest {x | ∃ t ∈ ticks, t.2.price = x} maxPrice ∧
      IsLeast {x | ∃ t ∈ ticks, t.2.price = x} minPrice ∧
      IsGreatest {x | ∃ t ∈ ticks, t.2.poolSol = x} maxPoolSol ∧
      (ticks.map fun t => t.2.price).foldl max (-f64Max) = max (-f64Max) maxPrice ∧
      (ticks.map fun t => t.2.price).foldl min f64Max = minPrice ∧
      (ticks.map fun t => t.2.poolSol).foldl max (-f64Max) = max (-f64Max) maxPoolSol := by
  have listed (value : DipTick → ℚ) : {x | ∃ t ∈ ticks, value t.2 = x} =
      {x | x ∈ ticks.map fun t => value t.2} := by
    ext x
    simp only [Set.mem_ofPred_eq, List.mem_map]
  have filled (value : DipTick → ℚ) : (ticks.map fun t => value t.2) ≠ [] := by
    simpa using some
  obtain ⟨⟨maxPrice, hmax⟩, minPrice, hmin⟩ := exists_extremes (filled DipTick.price)
  obtain ⟨⟨maxPoolSol, hpool⟩, -⟩ := exists_extremes (filled DipTick.poolSol)
  rw [listed DipTick.price, listed DipTick.poolSol]
  refine ⟨maxPrice, minPrice, maxPoolSol, hmax, hmin, hpool, foldl_max_eq hmax _, ?_,
    foldl_max_eq hpool _⟩
  rw [foldl_min_eq hmin]
  obtain ⟨t, mem, same⟩ := List.mem_map.mp hmin.1
  apply min_eq_right
  rw [← same]
  exact bounded t mem

theorem floored_pos (greatest : ℚ) : 0 < max (-f64Max) greatest ↔ 0 < greatest := by
  rw [lt_max_iff]
  constructor
  · rintro (floor | positive)
    · exact absurd floor (not_lt.mpr (neg_nonpos.mpr f64Max_pos.le))
    · exact positive
  · exact Or.inr

theorem floored_eq {greatest : ℚ} (positive : 0 < greatest) :
    max (-f64Max) greatest = greatest :=
  max_eq_right ((neg_nonpos.mpr f64Max_pos.le).trans positive.le)

theorem proper_iff {maxPrice minPrice maxPoolSol : ℚ} (apart : minPrice ≤ maxPrice) :
    ¬ (max (-f64Max) maxPrice ≤ 0 ∨ max (-f64Max) maxPoolSol ≤ 0 ∨
      |max (-f64Max) maxPrice - minPrice| < f64Epsilon) ↔
    0 < maxPrice ∧ 0 < maxPoolSol ∧ f64Epsilon ≤ maxPrice - minPrice := by
  have spread (worth : 0 < maxPrice) :
      |max (-f64Max) maxPrice - minPrice| = maxPrice - minPrice := by
    rw [floored_eq worth, abs_of_nonneg (sub_nonneg.mpr apart)]
  rw [not_or, not_or, not_le, not_le, not_lt, floored_pos, floored_pos]
  constructor
  · rintro ⟨worth, stocked, wide⟩
    rw [spread worth] at wide
    exact ⟨worth, stocked, wide⟩
  · rintro ⟨worth, stocked, wide⟩
    rw [spread worth]
    exact ⟨worth, stocked, wide⟩

theorem gate_iff {β : Type} {P M : Prop} [Decidable P] {rest : Option β} (stops : P → ¬ M)
    (passes : ¬ P → (rest.isSome ↔ M)) : (if P then none else rest).isSome ↔ M := by
  by_cases h : P
  · rw [if_pos h]
    constructor
    · intro fired
      cases fired
    · intro met
      exact absurd met (stops h)
  · rw [if_neg h]
    exact passes h

theorem signal_isSome_iff {cfg : DipBuyConfig} {sessionStart now : Instant} {entry : DipTick}
    {ticks : List (Instant × DipTick)} (last : Option Instant)
    (entered : ticks.getLast? = some (now, entry))
    (bounded : ∀ t ∈ ticks, t.2.price ≤ f64Max) :
    ((holding cfg sessionStart ticks last).signal now).isSome ↔
      Meets cfg (cfg.maxPoolSolDrawdownPct ≤ 0) now entry ticks := by
  have here : (now, entry) ∈ ticks := List.mem_of_getLast? entered
  have filled : ticks ≠ [] := List.ne_nil_of_mem here
  obtain ⟨⟨oldestTs, oldest⟩, first⟩ : ∃ oldest, ticks.head? = some oldest :=
    ⟨_, List.head?_eq_some_head filled⟩
  obtain ⟨maxPrice, minPrice, maxPoolSol, highest, lowest, fullest, max_eq, min_eq, pool_eq⟩ :=
    folds_eq filled bounded
  have same {a b c : ℚ} (dip : Dip cfg (cfg.maxPoolSolDrawdownPct ≤ 0) entry ticks a b c) :
      Dip cfg (cfg.maxPoolSolDrawdownPct ≤ 0) entry ticks maxPrice minPrice maxPoolSol := by
    rw [highest.unique dip.highest, lowest.unique dip.lowest, fullest.unique dip.fullest]
    exact dip
  unfold signal
  simp only [holding, new, first, entered, max_eq, min_eq, pool_eq]
  apply gate_iff
  · intro short met
    exact absurd met.enough (not_le.mpr short)
  intro enough
  apply gate_iff
  · rintro young ⟨-, ⟨first', mem, aged⟩, -⟩
    cases first.symm.trans mem
    exact absurd aged (not_le.mpr young)
  intro aged
  apply gate_iff
  · intro small met
    exact absurd met.mature (not_le.mpr small)
  intro mature
  have apart : minPrice ≤ maxPrice := lowest.2 highest.1
  apply gate_iff
  · rintro degenerate ⟨-, -, -, ⟨a, b, c, dip⟩, -, -⟩
    have dip := same dip
    exact (proper_iff apart).mpr ⟨dip.price_pos, dip.pool_pos, dip.spread⟩ degenerate
  intro proper
  obtain ⟨worth, stocked, wide⟩ := (proper_iff apart).mp proper
  rw [floored_eq worth, floored_eq stocked]
  apply gate_iff
  · rintro shallow ⟨-, -, -, ⟨a, b, c, dip⟩, -, -⟩
    have dip := same dip
    exact shallow ⟨dip.drawdown, dip.quantile, dip.drained⟩
  intro deep
  obtain ⟨drawdown, quantile, drained⟩ := not_not.mp deep
  apply gate_iff
  · rintro ⟨limited, dying⟩ ⟨-, -, -, ⟨a, b, c, dip⟩, -, -⟩
    rcases (same dip).alive with alive | unlimited
    · exact absurd alive (not_le.mpr dying)
    · exact absurd unlimited (not_le.mpr limited)
  intro alive
  apply gate_iff
  · intro draining met
    rw [(recovered_iff here _ _ _ _).mpr met.pool] at draining
    cases draining
  intro pool
  apply gate_iff
  · intro falling met
    rw [(recovered_iff here _ _ _ _).mpr met.price] at falling
    cases falling
  intro price
  constructor
  · intro _
    refine ⟨not_lt.mp enough, ⟨(oldestTs, oldest), first, not_lt.mp aged⟩, not_lt.mp mature,
      ⟨maxPrice, minPrice, maxPoolSol, highest, lowest, fullest, worth, stocked,
        wide, drawdown, quantile, drained, ?_⟩, ?_, ?_⟩
    · rcases le_or_gt cfg.maxPoolSolDrawdownPct 0 with unlimited | limited
      · exact .inr unlimited
      · exact .inl (not_lt.mp fun dying => alive ⟨limited, dying⟩)
    · exact (recovered_iff here _ _ _ _).mp (by simpa using pool)
    · exact (recovered_iff here _ _ _ _).mp (by simpa using price)
  · intro _
    rfl

def machine (cfg : DipBuyConfig) (sessionStart : Instant) :
    Machine DipBuyDetector (Instant × DipTick) (Option DipSignal) where
  start := new cfg sessionStart
  step d t := (d.observe t.1 t.2.price t.2.poolSol).check t.1

theorem lastFire_alarm (cfg : DipBuyConfig) (sessionStart : Instant) :
    LastAlarm (machine cfg sessionStart) Prod.fst DipBuyDetector.lastFire := by
  have stamped (d : DipBuyDetector) (t : Instant × DipTick) :
      ((machine cfg sessionStart).step d t).1.lastFire =
        (((machine cfg sessionStart).step d t).2.map fun _ => t.1).or d.lastFire := by
    have kept : (d.observe t.1 t.2.price t.2.poolSol).lastFire = d.lastFire := by
      unfold observe
      split_ifs <;> rfl
    rw [← kept]
    exact congrArg DipBuyDetector.lastFire (check_memory _ t.1)
  constructor
  · rfl
  · intro d t quiet
    rw [stamped, quiet]
    rfl
  · intro d t signal fired
    rw [stamped, fired]
    rfl

theorem observe_held (f : Feed DipTick) (cfg : DipBuyConfig) (sessionStart : Instant) (n : Nat)
    (last : Option Instant) :
    (holding cfg sessionStart
        (if cfg.enabled then f.stored (fromSecs cfg.windowSecs) n else []) last).observe
          (f.time n) (f.value n).price (f.value n).poolSol =
      holding cfg sessionStart
        (if cfg.enabled then f.within (fromSecs cfg.windowSecs) n else []) last := by
  have pushed := observe_holding cfg sessionStart
    (if cfg.enabled then f.stored (fromSecs cfg.windowSecs) n else []) last (f.tick n)
  refine pushed.trans ?_
  by_cases on : cfg.enabled = true
  · rw [if_pos on, if_pos on, if_pos on]
    exact congrArg (fun ticks => holding cfg sessionStart ticks last)
      (f.evict_push (fromSecs cfg.windowSecs) n)
  · rw [if_neg on, if_neg on, if_neg on]

theorem state_held (f : Feed DipTick) (cfg : DipBuyConfig) (sessionStart : Instant) (n : Nat) :
    (machine cfg sessionStart).state f.tick n =
      holding cfg sessionStart
        (if cfg.enabled then f.stored (fromSecs cfg.windowSecs) n else [])
        ((machine cfg sessionStart).state f.tick n).lastFire := by
  induction n with
  | zero =>
    have nothing : f.stored (fromSecs cfg.windowSecs) 0 = [] := rfl
    rw [nothing, ite_self]
    rfl
  | succ n ih =>
    have observed := observe_held f cfg sessionStart n
      ((machine cfg sessionStart).state f.tick n).lastFire
    rw [← ih] at observed
    have stepped : (machine cfg sessionStart).state f.tick (n + 1) =
        ((((machine cfg sessionStart).state f.tick n).observe (f.time n) (f.value n).price
          (f.value n).poolSol).check (f.time n)).1 := rfl
    rw [stepped, check_memory, observed]
    rfl

end DipBuyDetector

open DipBuyDetector (machine new holding Meets)

/-- A feed of prices and pool liquidities; no price is above the largest `f64`. -/
structure DipFeed extends Feed DipTick where
  price_le : ∀ n, (tick n).2.price ≤ f64Max

namespace DipFeed

variable (f : DipFeed) (cfg : DipBuyConfig) (sessionStart : Instant)

def detector (n : Nat) : DipBuyDetector := (machine cfg sessionStart).state f.tick n

def verdict (n : Nat) : Option DipSignal := (machine cfg sessionStart).answer f.tick n

def observed (n : Nat) : DipBuyDetector :=
  (f.detector cfg sessionStart n).observe (f.time n) (f.value n).price (f.value n).poolSol

theorem verdict_eq (n : Nat) : f.verdict cfg sessionStart n =
    ((f.observed cfg sessionStart n).check (f.time n)).2 := rfl

theorem observed_eq (n : Nat) : f.observed cfg sessionStart n =
    holding cfg sessionStart
      (if cfg.enabled then f.within (fromSecs cfg.windowSecs) n else [])
      (f.detector cfg sessionStart n).lastFire := by
  rw [observed, detector, DipBuyDetector.state_held f.toFeed]
  exact DipBuyDetector.observe_held f.toFeed cfg sessionStart n _

/-- The documented criteria at tick `n`, over exactly the ticks of its window. -/
structure Criteria (n : Nat) (unlimited : Prop) : Prop where
  cooled : ∀ k < n, (f.verdict cfg sessionStart k).isSome →
    fromSecs cfg.cooldownSecs ≤ f.time n - f.time k
  young : asSecs (f.time n - sessionStart) ≤ cfg.maxSessionAgeSecs ∨ cfg.maxSessionAgeSecs = 0
  meets : Meets cfg unlimited (f.time n) (f.value n) (f.within (fromSecs cfg.windowSecs) n)

/-- The detector fires exactly when it is enabled and its documented criteria hold, where a drain
limit that is not positive is no limit. -/
theorem fires_iff_criteria (n : Nat) : (f.verdict cfg sessionStart n).isSome ↔
    cfg.enabled ∧ f.Criteria cfg sessionStart n (cfg.maxPoolSolDrawdownPct ≤ 0) := by
  have seen := f.observed_eq cfg sessionStart n
  rw [verdict_eq, seen, DipBuyDetector.check_isSome_iff]
  by_cases on : cfg.enabled = true
  case neg =>
    constructor
    · rintro ⟨enabled, -⟩
      exact absurd enabled on
    · rintro ⟨enabled, -⟩
      exact absurd enabled on
  rw [if_pos on]
  have bounded : ∀ t ∈ f.within (fromSecs cfg.windowSecs) n, t.2.price ≤ f64Max := by
    intro t mem
    obtain ⟨i, -, rfl, -⟩ := f.mem_within.mp mem
    exact f.price_le i
  have cooled : (∀ t ∈ (f.detector cfg sessionStart n).lastFire,
        fromSecs cfg.cooldownSecs ≤ f.time n - t) ↔
      ∀ k < n, (f.verdict cfg sessionStart k).isSome →
        fromSecs cfg.cooldownSecs ≤ f.time n - f.time k := by
    apply (DipBuyDetector.lastFire_alarm cfg sessionStart).forall_iff f.ordered
    intro s t le later
    exact later.trans (Nat.sub_le_sub_left le (f.time n))
  have signalled : ((holding cfg sessionStart (f.within (fromSecs cfg.windowSecs) n)
        (f.detector cfg sessionStart n).lastFire).signal (f.time n)).isSome ↔
      Meets cfg (cfg.maxPoolSolDrawdownPct ≤ 0) (f.time n) (f.value n)
        (f.within (fromSecs cfg.windowSecs) n) :=
    DipBuyDetector.signal_isSome_iff _ (f.within_getLast? _ n) bounded
  rw [signalled]
  constructor
  · rintro ⟨-, calm, young, meets⟩
    exact ⟨on, cooled.mp calm, young, meets⟩
  · rintro ⟨-, calm, young, meets⟩
    exact ⟨on, cooled.mpr calm, young, meets⟩

/-- A fall from 100 to 50 and up to 55, while the pool drains from 100 to 70 and refills to 75. -/
def shallowDip : DipFeed where
  tick n := (fromSecs n,
    [⟨100, 100⟩, ⟨80, 90⟩, ⟨70, 80⟩, ⟨60, 75⟩, ⟨50, 70⟩].getD n ⟨55, 75⟩)
  ordered := fun _ _ le => Nat.mul_le_mul_right 1000000000 le
  price_le := by
    intro n
    rw [List.getD_eq_getElem?_getD]
    have listed : ∀ t ∈ ([⟨100, 100⟩, ⟨80, 90⟩, ⟨70, 80⟩, ⟨60, 75⟩, ⟨50, 70⟩] : List DipTick),
        t.price ≤ f64Max := by decide +kernel
    cases here : ([⟨100, 100⟩, ⟨80, 90⟩, ⟨70, 80⟩, ⟨60, 75⟩, ⟨50, 70⟩] : List DipTick)[n]? with
    | none => exact (by decide +kernel : (55 : ℚ) ≤ f64Max)
    | some t => exact listed t (List.mem_of_getElem? here)

/-- The detector fires exactly on its criteria, whatever its switch, and only a zero drain limit is
no limit. -/
def FiresOnCriteriaAlone : Prop :=
  ∀ n, (f.verdict cfg sessionStart n).isSome ↔
    f.Criteria cfg sessionStart n (cfg.maxPoolSolDrawdownPct = 0)

/-- A disabled detector never fires, and a negative drain limit is no limit. -/
theorem criteria_alone_not_exact :
    ¬ shallowDip.FiresOnCriteriaAlone { windowSecs := 5 } 0 ∧
      ¬ shallowDip.FiresOnCriteriaAlone
        { enabled := true, windowSecs := 5, maxPoolSolDrawdownPct := -1 } 0 := by
  constructor
  · intro fires
    have met : Meets { windowSecs := 5 } ((45 / 100 : ℚ) ≤ 0) (shallowDip.time 5)
        (shallowDip.value 5) (shallowDip.within (fromSecs 5) 5) := by
      have signalled : ((holding { windowSecs := 5 } 0 (shallowDip.within (fromSecs 5) 5)
          none).signal (shallowDip.time 5)).isSome := by decide +kernel
      refine (DipBuyDetector.signal_isSome_iff none ?_ ?_).mp signalled
      · exact shallowDip.within_getLast? (fromSecs 5) 5
      · decide +kernel
    obtain ⟨maxPrice, minPrice, maxPoolSol, dip⟩ := met.dip
    have alive : (maxPoolSol - 75) / maxPoolSol ≤ 45 / 100 ∨ (45 / 100 : ℚ) = 0 := by
      rcases dip.alive with alive | unlimited
      · exact .inl alive
      · exact absurd unlimited (by decide +kernel)
    have silent : ¬ (shallowDip.verdict { windowSecs := 5 } 0 5).isSome := by decide +kernel
    apply silent
    apply (fires 5).mpr
    refine ⟨by decide +kernel, by decide +kernel, met.enough, met.full, met.mature,
      ⟨maxPrice, minPrice, maxPoolSol, ?_⟩, met.pool, met.price⟩
    exact ⟨dip.highest, dip.lowest, dip.fullest, dip.price_pos, dip.pool_pos, dip.spread,
      dip.drawdown, dip.quantile, dip.drained, alive⟩
  · intro fires
    have met := ((fires 5).mp (by decide +kernel)).meets
    obtain ⟨maxPrice, minPrice, maxPoolSol, dip⟩ := met.dip
    rcases dip.alive with dying | unlimited
    · have inside : (75 : ℚ) ≤ maxPoolSol :=
        dip.fullest.2 ⟨shallowDip.tick 5, by decide +kernel, rfl⟩
      have drain : 0 ≤ (maxPoolSol - 75) / maxPoolSol :=
        div_nonneg (sub_nonneg.mpr inside) dip.pool_pos.le
      exact absurd (drain.trans dying) (by decide +kernel)
    · exact absurd unlimited (by decide +kernel)

end DipFeed

end HadesPsTrader.Market
