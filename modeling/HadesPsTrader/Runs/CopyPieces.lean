/- Module: HadesPsTrader/Runs/CopyPieces
   source: src/copy_session.rs
   digest: The pieces of a copy session that leave its slot and its subscriptions alone. -/

import HadesPsTrader.Interaction.Steady
import HadesPsTrader.Tasks.CopySession

set_option autoImplicit false
set_option relaxedAutoImplicit false

namespace HadesPsTrader.Tasks

open HadesPsTrader.Market HadesPsTrader.Chain HadesPsTrader.Interaction

/-- The operations of a copy session apart from the entry gates, the slot and the select. -/
def Op.isAside : Op → Bool
  | .now .spendCheck => false
  | .fetchAdd => false
  | .fetchSub => false
  | .spendCheck _ _ => false
  | .select => false
  | .copySelect _ => false
  | _ => true

/-- The operations of a monitored copy session, apart from its select. -/
def Op.isExit : Op → Bool
  | .call _ => true
  | .now .exitAge => true
  | .sellAll _ => true
  | .fetchSolBalance => true
  | .notify _ => true
  | _ => false

theorem isAside_of_isExit (o : Op) (exit : o.isExit = true) : o.isAside = true := by
  cases o with
  | now site => cases site <;> first | rfl | cases exit
  | call c => rfl
  | sellAll p => rfl
  | fetchSolBalance => rfl
  | notify n => rfl
  | _ => cases exit

/-- What a copy session notes down of the prices it sees, and whether it has sold. -/
def CopyLocals.noted (l : CopyLocals) (rugGuard : RugGuard) (peakPct : ℚ) (lastPrice : Option ℚ)
    (sold : Bool) : CopyLocals :=
  { l with rugGuard := rugGuard, peakPct := peakPct, lastPrice := lastPrice, sold := sold }

section Calls

variable {S L : Type} {plain : Op → Prop} {I : L → Prop} {cfg : Market.Config} {dryRun : Bool}

theorem traderBuy_steady {p : BuyParams} (plainly : plain (.buy p)) :
    Async.Steady S plain I (traderBuy cfg dryRun p) := by
  apply Async.Steady.bind
  · exact .perform plainly
  intro answers
  exact .pure _

theorem traderSellAll_steady {p : SellAllParams} (plainly : plain (.sellAll p)) :
    Async.Steady S plain I (traderSellAll cfg dryRun p) := by
  apply Async.Steady.bind
  · exact .perform plainly
  intro answers
  exact .pure _

theorem fetchBalance_steady {attempts : Nat} {mint : Pubkey}
    (plainly : plain (.fetchTokenBalance mint)) :
    Async.Steady S plain I (fetchBalance attempts mint) := by
  apply Async.Steady.bind
  · exact .perform plainly
  intro answers
  exact .pure _

end Calls

section Pieces

variable {S : Type} {plain : Op → Prop} {I : CopyLocals → Prop} (cfg : Market.Config)
  (dryRun : Bool)

theorem firstPrice_steady (plainly : plain .recv) : Async.Steady S plain I firstPrice := by
  apply Async.Steady.loop
  apply Async.Steady.bind
  · exact .perform plainly
  intro received
  match received with
  | none => exact .pure _
  | some sample =>
      dsimp only
      split_ifs
      · exact .pure _
      · exact .pure _

variable (covers : ∀ o, o.isExit = true → plain o)

include covers in
theorem doSell_steady (pct : ℚ) (reason : SellReason) :
    Async.Steady S plain I (doSell cfg dryRun pct reason) := by
  apply Async.Steady.bind
  · exact .perform (covers _ rfl)
  intro _
  apply Async.Steady.bind
  · exact .locals
  intro l
  apply Async.Steady.bind
  · exact traderSellAll_steady (covers _ rfl)
  intro res
  match res with
  | .ok (some sig) =>
      apply Async.Steady.bind
      · exact .perform (covers _ rfl)
      intro _
      apply Async.Steady.bind
      · exact .perform (covers _ rfl)
      intro _
      exact .pure _
  | .ok none => exact .pure _
  | .error e => exact .pure _

variable (notes : ∀ l rugGuard peakPct lastPrice sold, I l →
    I (l.noted rugGuard peakPct lastPrice sold))

include covers notes

theorem sellAndLeave_steady (pct : ℚ) (reason : SellReason) :
    Async.Steady S plain I (sellAndLeave cfg dryRun pct reason) := by
  apply Async.Steady.bind
  · exact doSell_steady cfg dryRun covers pct reason
  intro _
  apply Async.Steady.bind
  · apply Async.Steady.assign
    intro l here
    exact notes l l.rugGuard l.peakPct l.lastPrice true here
  intro _
  exact .pure _

theorem onCopyTick_steady (u : PriceUpdate) :
    Async.Steady S plain I (onCopyTick cfg dryRun u) := by
  apply Async.Steady.bind
  · apply Async.Steady.assign
    intro l here
    exact notes l (l.rugGuard.observe u.priceSol u.poolSol) l.peakPct (some u.priceSol) l.sold here
  intro _
  apply Async.Steady.bind
  · exact .locals
  intro l
  dsimp only
  split
  · exact sellAndLeave_steady cfg dryRun covers notes _ _
  · apply Async.Steady.bind
    · apply Async.Steady.assign
      intro l here
      exact notes l l.rugGuard _ l.lastPrice l.sold here
    intro _
    apply Async.Steady.bind
    · exact .perform (covers _ rfl)
    intro now
    split
    · exact .pure _
    · apply Async.Steady.bind
      · exact doSell_steady cfg dryRun covers _ _
      intro res
      match res with
      | .ok () =>
          apply Async.Steady.bind
          · apply Async.Steady.assign
            intro l here
            exact notes l l.rugGuard l.peakPct l.lastPrice true here
          intro _
          exact .pure _
      | .error e => exact .pure _

theorem onMirror_steady (r : Received AlphaTrade)
    (shuts : r = .closed → ∀ l, I l → I { l with mirrorOpen := false }) :
    Async.Steady S plain I (onMirror cfg dryRun r) := by
  apply Async.Steady.bind
  · exact .locals
  intro l
  cases r with
  | got sell =>
      dsimp only
      split_ifs
      · exact sellAndLeave_steady cfg dryRun covers notes _ _
      · exact .pure _
  | lagged n => exact .pure _
  | closed =>
      apply Async.Steady.bind
      · exact .assign (shuts rfl)
      intro _
      exact .pure _

theorem copyRound_steady (waits : ∀ mirrorOpen, plain (.copySelect mirrorOpen))
    (shuts : ∀ l, I l → I { l with mirrorOpen := false }) :
    Async.Steady S plain I (copyRound cfg dryRun) := by
  apply Async.Steady.bind
  · exact .locals
  intro l
  apply Async.Steady.bind
  · exact .perform (waits _)
  intro event
  match event with
  | .deadline => exact sellAndLeave_steady cfg dryRun covers notes _ _
  | .shutdown (.got ()) => exact sellAndLeave_steady cfg dryRun covers notes _ _
  | .shutdown .closed => exact sellAndLeave_steady cfg dryRun covers notes _ _
  | .shutdown (.lagged _) => exact .pure _
  | .mirror r => exact onMirror_steady cfg dryRun covers notes r fun _ => shuts
  | .tick none => exact .pure _
  | .tick (some sample) => exact onCopyTick_steady cfg dryRun covers notes sample.update

end Pieces

section Alpha

variable {S : Type} (cfg : Market.Config) (dryRun : Bool) (alpha : AlphaTrade)

/-- Computations that never forget the trade they copy. -/
abbrev KeepsAlpha {α : Type} (m : CopyM α) : Prop :=
  Async.Steady S (fun _ => True) (fun l => l.alpha = alpha) m

theorem releaseCopySlot_keepsAlpha : KeepsAlpha (S := S) alpha releaseCopySlot := by
  apply Async.Steady.bind
  · exact .perform trivial
  intro _
  apply Async.Steady.assign
  intro l here
  exact here

theorem copyRound_keepsAlpha : KeepsAlpha (S := S) alpha (copyRound cfg dryRun) := by
  apply copyRound_steady
  · exact fun _ _ => trivial
  · intro l rugGuard peakPct lastPrice sold here
    exact here
  · exact fun _ => trivial
  · intro l here
    exact here

theorem monitorToExit_keepsAlpha (boughtAt : Instant) (price : ℚ) :
    KeepsAlpha (S := S) alpha (monitorToExit cfg dryRun boughtAt price) := by
  apply Async.Steady.bind
  · apply Async.Steady.assign
    intro l here
    exact here
  intro _
  apply Async.Steady.bind
  · exact .perform trivial
  intro _
  apply Async.Steady.bind
  · exact .loop (copyRound_keepsAlpha cfg dryRun alpha)
  intro _
  apply Async.Steady.bind
  · exact .locals
  intro l
  split_ifs
  · exact releaseCopySlot_keepsAlpha alpha
  · apply Async.Steady.bind
    · exact doSell_steady cfg dryRun (fun _ _ => trivial) _ _
    intro _
    exact releaseCopySlot_keepsAlpha alpha

theorem establish_keepsAlpha (mint : Pubkey) (buyRes : Except BoxError (Option Signature)) :
    KeepsAlpha (S := S) alpha (establish cfg dryRun mint buyRes) := by
  apply Async.Steady.bind
  · exact .locals
  intro l
  apply Async.Steady.bind
  · exact .perform trivial
  intro _
  match buyRes with
  | .ok (some sig) =>
      apply Async.Steady.bind
      · exact .perform trivial
      intro boughtAt
      apply Async.Steady.bind
      · apply Async.Steady.assign
        intro l here
        exact here
      intro _
      apply Async.Steady.bind
      · exact fetchBalance_steady trivial
      intro balance
      match balance with
      | .error e =>
          apply Async.Steady.bind
          · exact .perform trivial
          intro _
          exact releaseCopySlot_keepsAlpha alpha
      | .ok b =>
          dsimp only
          split_ifs
          · exact releaseCopySlot_keepsAlpha alpha
          · apply Async.Steady.bind
            · exact .perform trivial
            intro _
            apply Async.Steady.bind
            · exact .perform trivial
            intro _
            exact monitorToExit_keepsAlpha cfg dryRun alpha _ _
  | .ok none =>
      apply Async.Steady.bind
      · exact .perform trivial
      intro _
      apply Async.Steady.bind
      · exact firstPrice_steady trivial
      intro first
      match first with
      | none => exact releaseCopySlot_keepsAlpha alpha
      | some price =>
          apply Async.Steady.bind
          · exact .perform trivial
          intro boughtAt
          exact monitorToExit_keepsAlpha cfg dryRun alpha _ _
  | .error e => exact releaseCopySlot_keepsAlpha alpha

theorem copyHandle_keepsAlpha : KeepsAlpha (S := S) alpha (copyHandle cfg dryRun) := by
  apply Async.Steady.bind
  · exact .locals
  intro l
  cases Pubkey.fromStr l.alpha.mint with
  | none => exact .pure _
  | some mint =>
      apply Async.Steady.bind
      · exact .perform trivial
      intro now
      apply Async.Steady.bind
      · exact .perform trivial
      intro allowed
      match allowed with
      | .error spent => exact .pure _
      | .ok () =>
          apply Async.Steady.bind
          · exact .perform trivial
          intro slot
          apply Async.Steady.bind
          · apply Async.Steady.assign
            intro l here
            exact here
          intro _
          split_ifs
          · exact releaseCopySlot_keepsAlpha alpha
          · apply Async.Steady.bind
            · exact traderBuy_steady trivial
            intro buyRes
            exact establish_keepsAlpha cfg dryRun alpha mint buyRes

end Alpha

end HadesPsTrader.Tasks
