/- Module: HadesPsTrader/Tasks/CopyExitRules
   source: src/copy_session.rs
   digest: The exits of a copy position, as rules over what its session has seen. -/

import HadesPsTrader.Market.ExitRules
import HadesPsTrader.Market.RugRule
import HadesPsTrader.Tasks.CopySession

set_option autoImplicit false
set_option relaxedAutoImplicit false

namespace HadesPsTrader.Tasks

open HadesPsTrader.Market HadesPsTrader.Chain HadesPsTrader.Interaction

def copySettings (cc : CopyTradeConfig) : ExitSettings :=
  ⟨Copy.effMaxHold cc, cc.stopLossPct, cc.takeProfitPct, cc.trailTiers⟩

/-- The rules that are asked, in their order. A mirrored position rides until its alpha leaves, so
that nothing caps its gains. -/
def copyPriority (mirror : Bool) : List ExitRule :=
  if mirror then [.maxHold, .stopLoss] else [.maxHold, .stopLoss, .trailing, .takeProfit]

/-- The first rule that holds gives `r`; `none` when no rule holds. -/
def CopyExitGiven (cc : CopyTradeConfig) (s : Standing) : Option ExitReason → Prop
  | some r => ∃ before rule after, copyPriority cc.mirrorExit = before ++ rule :: after ∧
      rule.Holds (copySettings cc) s r ∧
      ∀ earlier ∈ before, ∀ r', ¬ earlier.Holds (copySettings cc) s r'
  | none => ∀ rule ∈ copyPriority cc.mirrorExit, ∀ r, ¬ rule.Holds (copySettings cc) s r

/-- A sell of the copied mint by the copied wallet that closes its position, as far as the feed
tells. -/
structure AlphaCloses (cc : CopyTradeConfig) (alpha sell : AlphaTrade) : Prop where
  sells : sell.txType = "sell"
  mint : sell.mint = alpha.mint
  trader : sell.trader = alpha.trader
  closes : cc.mirrorExitOnFirstSell = true ∨ ∀ entry post, alpha.tokenBalance = some entry →
    sell.tokenBalance = some post → 0 < entry → post ≤ entry * cc.mirrorCloseFraction

section Rules

variable {cc : CopyTradeConfig} {s : Standing}

theorem copyExit_eq (cc : CopyTradeConfig) (s : Standing) :
    Copy.copyExit s.peakPct s.currentPct s.elapsedSecs cc (parseTiers cc.trailTiers) cc.mirrorExit
        (Copy.effMaxHold cc) =
      (copyPriority cc.mirrorExit).findSome? (ExitRule.reason (copySettings cc) s) := by
  rw [Copy.copyExit, copyPriority]
  by_cases held : 0 < Copy.effMaxHold cc ∧ Copy.effMaxHold cc ≤ s.elapsedSecs
  · cases cc.mirrorExit <;>
      simp [ExitRule.reason, copySettings, held]
  by_cases lost : 0 < cc.stopLossPct ∧ s.currentPct ≤ -cc.stopLossPct
  · cases cc.mirrorExit <;>
      simp only [List.findSome?_cons, ExitRule.reason, copySettings, if_neg held, if_pos lost,
        if_true, Bool.false_eq_true, if_false]
  cases mirror : cc.mirrorExit with
  | true =>
      simp only [List.findSome?_cons, List.findSome?_nil, ExitRule.reason, copySettings,
        if_neg held, if_neg lost, if_true]
  | false =>
      simp only [List.findSome?_cons, List.findSome?_nil, ExitRule.reason, copySettings,
        if_neg held, if_neg lost, Bool.false_eq_true, if_false]
      cases trailExit s.peakPct s.currentPct (parseTiers cc.trailTiers) with
      | some r => rfl
      | none => split_ifs <;> rfl

theorem copyExit_iff (given : Option ExitReason) :
    Copy.copyExit s.peakPct s.currentPct s.elapsedSecs cc (parseTiers cc.trailTiers) cc.mirrorExit
        (Copy.effMaxHold cc) = given ↔ CopyExitGiven cc s given := by
  rw [copyExit_eq]
  cases given with
  | none =>
      rw [List.findSome?_eq_none_iff, CopyExitGiven]
      exact forall₂_congr fun rule _ => ExitRule.reason_eq_none
  | some r =>
      rw [List.findSome?_eq_some_iff, CopyExitGiven]
      simp only [ExitRule.reason_eq_some, ExitRule.reason_eq_none]

theorem alphaClosed_iff {entry post : Option ℚ} {fraction : ℚ} {firstSell : Bool} :
    Copy.alphaClosed entry post fraction firstSell = true ↔
      firstSell = true ∨ ∀ e p, entry = some e → post = some p → 0 < e → p ≤ e * fraction := by
  cases firstSell with
  | true => simp [Copy.alphaClosed]
  | false =>
      cases entry with
      | none => cases post <;> simp [Copy.alphaClosed]
      | some e =>
          cases post with
          | none => simp [Copy.alphaClosed]
          | some p =>
              simp only [Copy.alphaClosed, Bool.false_eq_true, if_false, false_or,
                Option.some.injEq]
              split_ifs with empty
              · refine iff_of_true rfl ?_
                rintro _ _ rfl rfl positive
                exact absurd empty (not_le.mpr positive)
              · rw [decide_eq_true_eq]
                constructor
                · rintro below _ _ rfl rfl _
                  exact below
                · exact fun bounded => bounded e p rfl rfl (not_le.mp empty)

theorem alphaCloses_iff {alpha sell : AlphaTrade} :
    ((sell.txType = "sell" ∧ sell.mint = alpha.mint ∧ sell.trader = alpha.trader) ∧
      Copy.alphaClosed alpha.tokenBalance sell.tokenBalance cc.mirrorCloseFraction
        cc.mirrorExitOnFirstSell = true) ↔ AlphaCloses cc alpha sell := by
  rw [alphaClosed_iff]
  constructor
  · rintro ⟨⟨sells, mint, trader⟩, closes⟩
    exact ⟨sells, mint, trader, closes⟩
  · rintro ⟨sells, mint, trader, closes⟩
    exact ⟨⟨sells, mint, trader⟩, closes⟩

end Rules

end HadesPsTrader.Tasks
