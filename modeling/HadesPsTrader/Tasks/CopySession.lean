/- Module: HadesPsTrader/Tasks/CopySession
   source: src/copy_session.rs
   digest: The copy session: enter behind an alpha wallet, monitor to exit. -/

import HadesPsTrader.Market.DipBuy
import HadesPsTrader.Tasks.Effects

set_option autoImplicit false
set_option relaxedAutoImplicit false

namespace HadesPsTrader.Tasks

open HadesPsTrader.Market HadesPsTrader.Chain HadesPsTrader.Interaction

def copyBalanceFetchAttempts : Nat := 20

/-- The local variables of a copy session. `slot` is the reservation until it is released;
`boughtAt` is set from the entry, live or paper, until that release. -/
structure CopyLocals where
  alpha : AlphaTrade
  slot : Option Int := none
  boughtAt : Option Instant := none
  entryPriceSol : ℚ := 0
  rugGuard : RugGuard := {}
  peakPct : ℚ := 0
  lastPrice : Option ℚ := none
  mirrorOpen : Bool := false
  sold : Bool := false
  deriving DecidableEq

abbrev CopyM := TaskM CopyLocals

namespace Copy

def pnlPct (entry current : ℚ) : ℚ :=
  if entry ≤ 0 then 0 else (current - entry) / entry * 100

/-- The followed wallet has closed the mint, or nothing says that it has not. -/
def alphaClosed (entryBalance postSellBalance : Option ℚ) (closeFraction : ℚ) (firstSell : Bool) :
    Bool :=
  if firstSell then true
  else match entryBalance, postSellBalance with
  | _, none => true
  | none, some _ => true
  | some entry, some post => if entry ≤ 0 then true else post ≤ entry * closeFraction

/-- The exit backstops of a copy position; mirroring leaves out trailing stop and take-profit. -/
def copyExit (peakPct currentPct : ℚ) (elapsedSecs : Nat) (cc : CopyTradeConfig)
    (tiers : List TrailTier) (mirror : Bool) (maxHoldSecs : Nat) : Option ExitReason :=
  if 0 < maxHoldSecs ∧ maxHoldSecs ≤ elapsedSecs then some (.maxHoldTime elapsedSecs currentPct)
  else if 0 < cc.stopLossPct ∧ currentPct ≤ -cc.stopLossPct then some (.stopLoss currentPct)
  else if mirror then none
  else match trailExit peakPct currentPct tiers with
  | some reason => some reason
  | none =>
      if 0 < cc.takeProfitPct ∧ cc.takeProfitPct ≤ currentPct then some (.takeProfit currentPct)
      else none

/-- `eff_max_hold`: the holding cap in force. -/
def effMaxHold (cc : CopyTradeConfig) : Nat :=
  if cc.mirrorExit then cc.mirrorMaxHoldSecs else cc.maxHoldSecs

end Copy

def copySelect (mirrorOpen : Bool) : CopyM CopyEvent := Async.perform (Op.copySelect mirrorOpen)
def recvPrice : CopyM (Option Sample) := Async.perform Op.recv

section Program

variable (cfg : Config) (dryRun : Bool)

def doSell (pct : ℚ) (reason : SellReason) : CopyM (Except BoxError Unit) := do
  enter (.doSell reason)
  let l ← Async.locals
  let res ← traderSellAll cfg dryRun
    { mint := l.alpha.mint
      symbol := l.alpha.symbol
      slippagePct := cfg.trading.slippage
      priorityFeeSol := cfg.trading.priorityFeeSol
      maxRetries := cfg.trading.sellTxRetries }
  match res with
  | .ok (some _) => do
      let _ ← fetchSolBalance
      notify (.sold l.alpha.mint none l.alpha.symbol reason pct
        (cfg.copyTrade.tradeAmountSol * pct / 100))
      pure (.ok ())
  | .ok none => pure (.ok ())
  | .error e => pure (.error e)

/-- The PnL at the last price seen, zero before the first. -/
def CopyLocals.lastPct (l : CopyLocals) : ℚ :=
  (l.lastPrice.map (Copy.pnlPct l.entryPriceSol)).getD 0

/-- An exit that drops the outcome of its sell and leaves the loop as sold. -/
def sellAndLeave (pct : ℚ) (reason : SellReason) : CopyM (Option Unit) := do
  let _ ← doSell cfg dryRun pct reason
  Async.assign fun l => { l with sold := true }
  pure (some ())

def onMirror (r : Received AlphaTrade) : CopyM (Option Unit) := do
  let l ← Async.locals
  match r with
  | .got sell =>
      let theirs := sell.txType = "sell" ∧ sell.mint = l.alpha.mint ∧ sell.trader = l.alpha.trader
      if theirs ∧ Copy.alphaClosed l.alpha.tokenBalance sell.tokenBalance
          cfg.copyTrade.mirrorCloseFraction cfg.copyTrade.mirrorExitOnFirstSell then
        sellAndLeave cfg dryRun l.lastPct .mirrorAlphaClosed
      else pure none
  | .lagged _ => pure none
  | .closed => do
      Async.assign fun l => { l with mirrorOpen := false }
      pure none

def onCopyTick (u : PriceUpdate) : CopyM (Option Unit) := do
  Async.assign fun l => { l with
    lastPrice := some u.priceSol
    rugGuard := l.rugGuard.observe u.priceSol u.poolSol }
  let l ← Async.locals
  let pct := Copy.pnlPct l.entryPriceSol u.priceSol
  match l.rugGuard.isRugged cfg.rug u.priceSol u.poolSol with
  | some reason => sellAndLeave cfg dryRun pct (.rugDetected reason)
  | none => do
      let peakPct := if l.peakPct < pct then pct else l.peakPct
      Async.assign fun l => { l with peakPct := peakPct }
      let now ← instantNow .exitAge
      let elapsed := asSecs (durationSince now (l.boughtAt.getD now))
      match Copy.copyExit peakPct pct elapsed cfg.copyTrade (parseTiers cfg.copyTrade.trailTiers)
        cfg.copyTrade.mirrorExit (Copy.effMaxHold cfg.copyTrade) with
      | none => pure none
      | some reason => do
          let res ← doSell cfg dryRun pct (.exit reason)
          match res with
          | .ok () => do
              Async.assign fun l => { l with sold := true }
              pure (some ())
          | .error _ => pure none

def copyRound : CopyM (Option Unit) := do
  let l ← Async.locals
  let event ← copySelect l.mirrorOpen
  match event with
  | .deadline => sellAndLeave cfg dryRun l.lastPct .copyMaxHold
  | .shutdown (.got ()) => sellAndLeave cfg dryRun l.lastPct .shutdown
  | .shutdown .closed => sellAndLeave cfg dryRun l.lastPct .shutdown
  | .shutdown (.lagged _) => pure none
  | .mirror r => onMirror cfg dryRun r
  | .tick none => pure (some ())
  | .tick (some sample) => onCopyTick cfg dryRun sample.update

def releaseCopySlot : CopyM Unit := do
  let _ ← fetchSub
  Async.assign fun l => { l with slot := none, boughtAt := none }

def monitorToExit (boughtAt : Instant) (entryPriceSol : ℚ) : CopyM Unit := do
  let maxHold := Copy.effMaxHold cfg.copyTrade
  Async.assign fun l => { l with
    boughtAt := some boughtAt
    entryPriceSol := entryPriceSol
    mirrorOpen := cfg.copyTrade.mirrorExit }
  sleepUntil (if 0 < maxHold then some (boughtAt + fromSecs maxHold) else none)
  Async.loop (copyRound cfg dryRun)
  let l ← Async.locals
  if l.sold then releaseCopySlot
  else do
    let _ ← doSell cfg dryRun l.lastPct .copyForcedExit
    releaseCopySlot

/-- Wait for the first positive price of a paper position; `none` when the feed ends before. -/
def firstPrice : CopyM (Option ℚ) :=
  Async.loop do
    let received ← recvPrice
    match received with
    | none => pure (some none)
    | some sample =>
        if 0 < sample.update.priceSol then pure (some (some sample.update.priceSol))
        else pure none

def establish (mint : Pubkey) (buyRes : Except BoxError (Option Signature)) : CopyM Unit := do
  let amountSol := cfg.copyTrade.tradeAmountSol
  let l ← Async.locals
  -- recorded whatever the buy returned
  let _ ← spendRecord amountSol
  match buyRes with
  | .ok (some sig) => do
      let boughtAt ← instantNow .boughtAt
      Async.assign fun l => { l with boughtAt := some boughtAt }
      let balance ← fetchBalance copyBalanceFetchAttempts mint
      match balance with
      | .error e => do
          notify (.orphan l.alpha.mint none l.alpha.symbol sig amountSol e)
          releaseCopySlot
      | .ok b =>
          let tokenUi := b.uiAmount
          if tokenUi ≤ 0 then releaseCopySlot
          else do
            let entryPriceSol := amountSol / tokenUi
            notify (.bought l.alpha.mint none l.alpha.symbol amountSol tokenUi entryPriceSol)
            spawnPricePoll l.alpha.mint
            monitorToExit cfg dryRun boughtAt entryPriceSol
  | .ok none => do
      spawnPricePoll l.alpha.mint
      let first ← firstPrice
      match first with
      | none => releaseCopySlot
      | some price => do
          let boughtAt ← instantNow .boughtAt
          monitorToExit cfg dryRun boughtAt price
  | .error _ => releaseCopySlot

def copyHandle : CopyM Unit := do
  let l ← Async.locals
  match Pubkey.fromStr l.alpha.mint with
  | none => pure ()
  | some mint => do
      let amountSol := cfg.copyTrade.tradeAmountSol
      let now ← instantNow .spendCheck
      let allowed ← spendCheck now amountSol
      match allowed with
      | .error _ => pure ()
      | .ok () => do
          let slot ← fetchAdd
          Async.assign fun l => { l with slot := some slot }
          if (cfg.copyTrade.maxPositions : Int) ≤ slot then releaseCopySlot
          else do
            let buyRes ← traderBuy cfg dryRun
              { mint := l.alpha.mint
                symbol := l.alpha.symbol
                amountSol := amountSol
                slippagePct := cfg.trading.slippage
                priorityFeeSol := cfg.trading.priorityFeeSol
                maxRetries := cfg.trading.buyTxRetries }
            establish cfg dryRun mint buyRes

end Program

end HadesPsTrader.Tasks
