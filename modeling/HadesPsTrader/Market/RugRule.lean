/- Module: HadesPsTrader/Market/RugRule
   source: src/rug.rs
   digest: When the rug guard fires, in terms of all ticks that it has seen. -/

import Mathlib.Data.List.Induction
import Mathlib.Tactic.FieldSimp
import Mathlib.Tactic.Linarith
import Mathlib.Tactic.Ring
import HadesPsTrader.Interaction.Extremes
import HadesPsTrader.Market.Rug

set_option autoImplicit false
set_option relaxedAutoImplicit false

namespace HadesPsTrader.Market

open HadesPsTrader.Interaction

/-- `x` is below the positive `peak` by more than `pct` percent of it. -/
def DropsBy (pct peak x : ℚ) : Prop := 0 < peak ∧ pct / 100 * peak < peak - x

/-- The last of these ticks, each a price and a pool liquidity, calls for leaving the token. -/
def RugFilter.Due (f : RugFilter) (ticks : List (ℚ × ℚ)) : Prop :=
  f.enabled = true ∧ f.minSamples ≤ ticks.length ∧ ∃ tick, ticks.getLast? = some tick ∧
    ((0 < f.minPoolSol ∧ tick.2 < f.minPoolSol) ∨
      (0 < f.maxLiquidityDropPct ∧ ∃ peak, IsGreatest {x | x ∈ ticks.map Prod.snd} peak ∧
        DropsBy f.maxLiquidityDropPct peak tick.2) ∨
      (0 < f.maxDrawdownPct ∧ ∃ peak, IsGreatest {x | x ∈ ticks.map Prod.fst} peak ∧
        DropsBy f.maxDrawdownPct peak tick.1))

namespace RugGuard

/-- The guard of a session that has seen these ticks. -/
def after (ticks : List (ℚ × ℚ)) : RugGuard := ticks.foldl (fun g t => g.observe t.1 t.2) {}

theorem after_append (ticks : List (ℚ × ℚ)) (tick : ℚ × ℚ) :
    after (ticks ++ [tick]) = (after ticks).observe tick.1 tick.2 := by
  rw [after, List.foldl_append]
  rfl

theorem after_eq (ticks : List (ℚ × ℚ)) : after ticks =
    { samples := min ticks.length (2 ^ 32 - 1)
      peakPrice := (ticks.map Prod.fst).foldl max 0
      peakPoolSol := (ticks.map Prod.snd).foldl max 0 } := by
  induction ticks using List.reverseRecOn with
  | nil => rfl
  | append_singleton ticks tick ih =>
    have raised (peak x : ℚ) : (if peak < x then x else peak) = max peak x := by
      split_ifs with higher
      · exact (max_eq_right higher.le).symm
      · exact (max_eq_left (not_lt.mp higher)).symm
    have counted : min (min ticks.length (2 ^ 32 - 1) + 1) (2 ^ 32 - 1) =
        min (ticks ++ [tick]).length (2 ^ 32 - 1) := by
      rw [List.length_append, List.length_singleton]
      omega
    rw [after_append, ih, observe, raised, raised, counted]
    simp only [List.map_append, List.foldl_append, List.map_cons, List.map_nil, List.foldl_cons,
      List.foldl_nil]

theorem drop_iff {xs : List ℚ} {peak : ℚ} (greatest : IsGreatest {x | x ∈ xs} peak) (pct x : ℚ) :
    (0 < xs.foldl max 0 ∧ pct < (1 - x / xs.foldl max 0) * 100) ↔ DropsBy pct peak x := by
  rw [foldl_max_eq greatest]
  rcases le_or_gt peak 0 with low | high
  · rw [max_eq_left low]
    exact iff_of_false (fun rise => lt_irrefl _ rise.1) fun drop => absurd drop.1 (not_lt.mpr low)
  · rw [max_eq_right high.le, DropsBy]
    apply and_congr_right
    intro _
    have scaled : (1 - x / peak) * 100 = (peak - x) / (peak / 100) := by
      field_simp
    have share : pct * (peak / 100) = pct / 100 * peak := by ring
    rw [scaled, lt_div_iff₀ (div_pos high (by norm_num)), share]

theorem exists_drop_iff {xs : List ℚ} {peak : ℚ} (greatest : IsGreatest {x | x ∈ xs} peak)
    (pct x : ℚ) : (∃ p, IsGreatest {x | x ∈ xs} p ∧ DropsBy pct p x) ↔ DropsBy pct peak x := by
  constructor
  · rintro ⟨p, top, drop⟩
    rw [greatest.unique top]
    exact drop
  · exact fun drop => ⟨peak, greatest, drop⟩

theorem due_append_iff {f : RugFilter} {ticks : List (ℚ × ℚ)} {tick : ℚ × ℚ} {price pool : ℚ}
    (top_price : IsGreatest {x | x ∈ (ticks ++ [tick]).map Prod.fst} price)
    (top_pool : IsGreatest {x | x ∈ (ticks ++ [tick]).map Prod.snd} pool) :
    f.Due (ticks ++ [tick]) ↔
      (f.enabled = true ∧ f.minSamples ≤ (ticks ++ [tick]).length) ∧
        ((0 < f.minPoolSol ∧ tick.2 < f.minPoolSol) ∨
          (0 < f.maxLiquidityDropPct ∧ DropsBy f.maxLiquidityDropPct pool tick.2) ∨
          (0 < f.maxDrawdownPct ∧ DropsBy f.maxDrawdownPct price tick.1)) := by
  simp only [RugFilter.Due, exists_drop_iff top_price, exists_drop_iff top_pool,
    List.getLast?_concat, Option.some.injEq, exists_eq_left', and_assoc]

theorem isRugged_after_iff {f : RugFilter} (narrow : f.minSamples < 2 ^ 32)
    (ticks : List (ℚ × ℚ)) (tick : ℚ × ℚ) :
    ((after (ticks ++ [tick])).isRugged f tick.1 tick.2).isSome = true ↔
      f.Due (ticks ++ [tick]) := by
  have some_tick (g : ℚ × ℚ → ℚ) : (ticks ++ [tick]).map g ≠ [] := by simp
  obtain ⟨price, top_price⟩ := (exists_extremes (some_tick Prod.fst)).1
  obtain ⟨pool, top_pool⟩ := (exists_extremes (some_tick Prod.snd)).1
  rw [due_append_iff top_price top_pool, after_eq, isRugged]
  dsimp only
  have gate : (!f.enabled || decide (min (ticks ++ [tick]).length (2 ^ 32 - 1) < f.minSamples)) =
      true ↔ ¬ (f.enabled = true ∧ f.minSamples ≤ (ticks ++ [tick]).length) := by
    rw [Bool.or_eq_true, Bool.not_eq_true', decide_eq_true_eq, not_and_or, Bool.not_eq_true]
    apply or_congr_right
    omega
  by_cases judged : f.enabled = true ∧ f.minSamples ≤ (ticks ++ [tick]).length
  case neg =>
    rw [if_pos (gate.mpr judged)]
    exact iff_of_false nofun fun due => judged due.1
  rw [if_neg (gate.not.mpr (not_not.mpr judged)), and_iff_right judged]
  split_ifs with floor drained fell
  · exact iff_of_true rfl (.inl floor)
  · rw [drop_iff top_pool] at drained
    exact iff_of_true rfl (.inr (.inl drained))
  · rw [drop_iff top_price] at fell
    exact iff_of_true rfl (.inr (.inr fell))
  · rw [drop_iff top_pool] at drained
    rw [drop_iff top_price] at fell
    exact iff_of_false nofun (not_or.mpr ⟨floor, not_or.mpr ⟨drained, fell⟩⟩)

end RugGuard

end HadesPsTrader.Market
