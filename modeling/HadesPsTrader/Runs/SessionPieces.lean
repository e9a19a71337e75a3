/- Module: HadesPsTrader/Runs/SessionPieces
   source: src/session.rs
   digest: The trades of a graduation session leave the rest of it alone. -/

import HadesPsTrader.Runs.CopyPieces
import HadesPsTrader.Tasks.Session

set_option autoImplicit false
set_option relaxedAutoImplicit false

namespace HadesPsTrader.Tasks

open HadesPsTrader.Market HadesPsTrader.Chain HadesPsTrader.Interaction

/-- The operations of buys, sells and exits, apart from the calls of `try_buy`. -/
def Op.isTrading : Op → Bool
  | .call (.tryBuy _) => false
  | .call _ => true
  | .now .sessionStart => false
  | .now .tick => false
  | .now _ => true
  | .fetchTokenMetadata _ => false
  | .runFilters _ => false
  | .spawnPricePoll _ => false
  | .sleepUntil _ => false
  | .select => false
  | .copySelect _ => false
  | .recv => false
  | _ => true

/-- The call of a sell after which the position is gone whatever its outcome. -/
def Op.sellsForGood : Op → Bool
  | .call (.trySell (.exit _)) => false
  | .call (.trySell _) => true
  | _ => false

/-- The trading operations apart from the cap, the reservation and the buy. -/
def Op.isUnwinding : Op → Bool
  | .fetchAdd => false
  | .spendCheck _ _ => false
  | .spendRecord _ => false
  | .buy _ => false
  | o => o.isTrading

theorem isTrading_of_isUnwinding (o : Op) (unwinding : o.isUnwinding = true) :
    o.isTrading = true := by
  cases o with
  | fetchAdd => rfl
  | spendCheck now amountSol => rfl
  | spendRecord amountSol => rfl
  | buy p => rfl
  | _ => exact unwinding

/-- What a session knows apart from its trades. -/
def SessionLocals.untraded (l : SessionLocals) : SessionLocals :=
  { l with position := none, lastSellAt := none, buying := none, selling := none }

section Sales

variable {S : Type} {plain : Op → Prop} {I : SessionLocals → Prop} {cfg : Market.Config}
  {dryRun : Bool}

theorem trySell_steady {pos : Position} {pct : ℚ} {reason : SellReason}
    (called : plain (.call (.trySell reason))) (sells : ∀ p, plain (.sellAll p))
    (fetches : plain .fetchSolBalance) (notifies : ∀ n, plain (.notify n)) :
    Async.Steady S plain I (trySell cfg dryRun pos pct reason) := by
  apply Async.Steady.bind
  · exact .perform called
  intro _
  apply Async.Steady.bind
  · exact traderSellAll_steady (sells _)
  intro res
  match res with
  | .ok (some sig) =>
      apply Async.Steady.bind
      · exact .perform fetches
      intro _
      apply Async.Steady.bind
      · exact .perform (notifies _)
      intro _
      exact .pure _
  | .ok none => exact .pure _
  | .error e => exact .pure _

end Sales

section Pieces

variable {S : Type} {plain : Op → Prop} {I : SessionLocals → Prop} {cfg : Market.Config}
  {dryRun : Bool} (covers : ∀ o, o.isUnwinding = true → o.sellsForGood = false → plain o)
  (aside : ∀ l l' : SessionLocals, l'.untraded = l.untraded → I l → I l')

include aside in
theorem trade_steady {u : SessionLocals → SessionLocals}
    (same : ∀ l, (u l).untraded = l.untraded) :
    Async.Steady S plain I (Async.assign u : SessionM Unit) :=
  .assign fun l => aside l (u l) (same l)

include covers aside

theorem sellForGood_steady {pct : Position → ℚ} {reason : SellReason}
    (called : plain (.call (.trySell reason))) :
    Async.Steady S plain I (sellForGood cfg dryRun pct reason) := by
  apply Async.Steady.bind
  · exact .locals
  intro l
  cases l.position with
  | none => exact .pure _
  | some pos =>
      apply Async.Steady.bind
      · exact trade_steady aside fun _ => rfl
      intro _
      apply Async.Steady.bind
      · exact trySell_steady called (fun _ => covers _ rfl rfl) (covers _ rfl rfl) fun _ =>
          covers _ rfl rfl
      intro _
      apply Async.Steady.bind
      · exact .perform (covers _ rfl rfl)
      intro _
      exact trade_steady aside fun _ => rfl

theorem pnlExit_steady {price : ℚ} : Async.Steady S plain I (pnlExit cfg dryRun price) := by
  apply Async.Steady.bind
  · exact .locals
  intro l
  cases l.position with
  | none => exact .pure _
  | some pos =>
      apply Async.Steady.bind
      · exact trade_steady aside fun _ => rfl
      intro _
      apply Async.Steady.bind
      · exact .perform (covers _ rfl rfl)
      intro now
      dsimp only
      split
      · exact .pure _
      · apply Async.Steady.bind
        · exact trade_steady aside fun _ => rfl
        intro _
        apply Async.Steady.bind
        · exact trySell_steady (covers _ rfl rfl) (fun _ => covers _ rfl rfl)
            (covers _ rfl rfl) fun _ => covers _ rfl rfl
        intro res
        match res with
        | .ok () =>
            apply Async.Steady.bind
            · exact .perform (covers _ rfl rfl)
            intro _
            apply Async.Steady.bind
            · exact trade_steady aside fun _ => rfl
            intro _
            apply Async.Steady.bind
            · exact .perform (covers _ rfl rfl)
            intro soldAt
            exact trade_steady aside fun _ => rfl
        | .error e => exact trade_steady aside fun _ => rfl

omit aside in
theorem releaseSlot_steady : Async.Steady S plain I releaseSlot := by
  apply Async.Steady.bind
  · exact .perform (covers _ rfl rfl)
  intro _
  exact .pure _

theorem trackPosition_steady {mint : Pubkey} {trigger : EntryTrigger} {slot : Int}
    {sig : Signature} : Async.Steady S plain I (trackPosition cfg mint trigger slot sig) := by
  apply Async.Steady.bind
  · exact .locals
  intro l
  apply Async.Steady.bind
  · exact .perform (covers _ rfl rfl)
  intro boughtAt
  apply Async.Steady.bind
  · exact trade_steady aside fun _ => rfl
  intro _
  apply Async.Steady.bind
  · exact fetchBalance_steady (covers _ rfl rfl)
  intro balance
  match balance with
  | .error e =>
      apply Async.Steady.bind
      · exact .perform (covers _ rfl rfl)
      intro _
      exact releaseSlot_steady covers
  | .ok b =>
      dsimp only
      split_ifs
      · exact releaseSlot_steady covers
      · apply Async.Steady.bind
        · exact .perform (covers _ rfl rfl)
        intro _
        exact .pure _

end Pieces

section Entries

variable {S : Type} {plain : Op → Prop} {I : SessionLocals → Prop} {cfg : Market.Config}
  {dryRun : Bool} (covers : ∀ o, o.isTrading = true → o.sellsForGood = false → plain o)
  (aside : ∀ l l' : SessionLocals, l'.untraded = l.untraded → I l → I l')

include covers

theorem recordDipBuy_steady {trigger : EntryTrigger} :
    Async.Steady S plain I (recordDipBuy cfg trigger) := by
  unfold recordDipBuy
  split_ifs
  · apply Async.Steady.bind
    · exact .perform (covers _ rfl rfl)
    intro _
    exact .pure _
  · exact .pure _

include aside

theorem buyInSlot_steady {mint : Pubkey} {trigger : EntryTrigger} :
    Async.Steady S plain I (buyInSlot cfg dryRun mint trigger) := by
  have unwinds (o : Op) (h : o.isUnwinding = true) (kept : o.sellsForGood = false) : plain o :=
    covers o (isTrading_of_isUnwinding o h) kept
  apply Async.Steady.bind
  · exact .locals
  intro l
  apply Async.Steady.bind
  · exact .perform (covers _ rfl rfl)
  intro slot
  apply Async.Steady.bind
  · exact trade_steady aside fun _ => rfl
  intro _
  split_ifs
  · exact releaseSlot_steady unwinds
  · apply Async.Steady.bind
    · exact traderBuy_steady (covers _ rfl rfl)
    intro res
    match res with
    | .ok (some sig) =>
        apply Async.Steady.bind
        · exact recordDipBuy_steady covers
        intro _
        exact trackPosition_steady unwinds aside
    | .ok none =>
        apply Async.Steady.bind
        · exact recordDipBuy_steady covers
        intro _
        exact releaseSlot_steady unwinds
    | .error e => exact releaseSlot_steady unwinds

theorem enterPosition_steady {mint : Pubkey} {trigger : EntryTrigger}
    (called : plain (.call (.tryBuy trigger))) :
    Async.Steady S plain I (enterPosition cfg dryRun mint trigger) := by
  apply Async.Steady.bind
  · apply Async.Steady.bind
    · exact .perform called
    intro _
    apply Async.Steady.bind
    · exact trade_steady aside fun _ => rfl
    intro _
    split_ifs
    · apply Async.Steady.bind
      · exact .perform (covers _ rfl rfl)
      intro now
      apply Async.Steady.bind
      · exact .perform (covers _ rfl rfl)
      intro allowed
      match allowed with
      | .error spent => exact .pure _
      | .ok () => exact buyInSlot_steady covers aside
    · exact buyInSlot_steady covers aside
  intro position
  exact trade_steady aside fun _ => rfl

theorem gatedEntry_steady {mint : Pubkey} {now : Instant} {trigger : EntryTrigger}
    (called : plain (.call (.tryBuy trigger))) :
    Async.Steady S plain I (gatedEntry cfg dryRun mint now trigger) := by
  apply Async.Steady.bind
  · exact .locals
  intro l
  split_ifs
  · exact .pure _
  split
  · split_ifs
    · exact .pure _
    · exact enterPosition_steady covers aside called
  · exact enterPosition_steady covers aside called

theorem dipBuyEntry_steady {mint : Pubkey} {now : Instant} {u : PriceUpdate}
    (called : plain (.call (.tryBuy .dipBuy)))
    (fed : ∀ l detector, I l → I { l with dipBuyDetector := detector }) :
    Async.Steady S plain I (dipBuyEntry cfg dryRun mint now u) := by
  apply Async.Steady.bind
  · exact .locals
  intro l
  split_ifs
  · apply Async.Steady.bind
    · exact .assign fun l => fed l _
    intro _
    split
    · exact gatedEntry_steady covers aside called
    · exact .pure _
  · exact .pure _

theorem capitulationEntry_steady {mint : Pubkey} {now : Instant} {u : PriceUpdate}
    (called : plain (.call (.tryBuy .capitulation)))
    (fed : ∀ l detector, I l → I { l with capDetector := detector }) :
    Async.Steady S plain I (capitulationEntry cfg dryRun mint now u) := by
  apply Async.Steady.bind
  · exact .locals
  intro l
  split_ifs
  · apply Async.Steady.bind
    · exact .assign fun l => fed l _
    intro _
    split
    · exact gatedEntry_steady covers aside called
    · exact .pure _
  · exact .pure _

end Entries

end HadesPsTrader.Tasks
