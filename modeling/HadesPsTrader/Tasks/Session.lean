/- Module: HadesPsTrader/Tasks/Session
   source: src/session.rs, src/main.rs
   digest: The graduation session: price ticks in, buys and sells out. -/

import HadesPsTrader.Market.DipBuy
import HadesPsTrader.Market.Macd
import HadesPsTrader.Tasks.Effects

set_option autoImplicit false
set_option relaxedAutoImplicit false

namespace HadesPsTrader.Tasks

open HadesPsTrader.Market HadesPsTrader.Chain HadesPsTrader.Interaction

def balanceFetchAttempts : Nat := 20

/-- The activation record of `try_buy`. -/
structure BuyFrame where
  trigger : EntryTrigger
  slot : Option Int := none
  boughtAt : Option Instant := none
  deriving DecidableEq

/-- The local variables of a session. `buying` is the frame of a running `try_buy`; `selling` is a
position that was taken for a sale, until its fate is settled. -/
structure SessionLocals where
  event : MigrationEvent
  position : Option Position := none
  lastSellAt : Option Instant := none
  lastPrice : Option ℚ := none
  rugGuard : RugGuard := {}
  capDetector : CapitulationDetector
  dipBuyDetector : DipBuyDetector
  aggregator : CandleAggregator
  macd : Macd
  buying : Option BuyFrame := none
  selling : Option Position := none

def SessionLocals.start (cfg : Config) (event : MigrationEvent) (sessionStart : Instant) :
    SessionLocals where
  event := event
  capDetector := .new cfg.capitulation
  dipBuyDetector := .new cfg.dipBuy sessionStart
  aggregator := { interval := fromSecs cfg.macd.candleIntervalSecs }
  macd := .new cfg.macd.fast cfg.macd.slow cfg.macd.signal

namespace SessionLocals

variable (l : SessionLocals)

def take : SessionLocals := { l with position := none, selling := l.position }

def settle : SessionLocals := { l with selling := none }

/-- Put the unsold position back. -/
def restore (pos : Position) : SessionLocals := { l with position := some pos, selling := none }

end SessionLocals

abbrev SessionM := TaskM SessionLocals

def selectTick : SessionM SessionEvent := Async.perform Op.select

section Program

variable (cfg : Config) (dryRun : Bool)

def trySell (pos : Position) (pct : ℚ) (reason : SellReason) : SessionM (Except BoxError Unit) := do
  enter (.trySell reason)
  let res ← traderSellAll cfg dryRun
    { mint := pos.mint
      symbol := pos.symbol
      slippagePct := cfg.trading.slippage
      priorityFeeSol := cfg.trading.priorityFeeSol
      maxRetries := cfg.trading.sellTxRetries }
  match res with
  | .ok (some _) => do
      let _ ← fetchSolBalance
      notify (.sold pos.mint pos.name pos.symbol reason pct (pos.costSol * pct / 100))
      pure (.ok ())
  | .ok none => pure (.ok ())
  | .error e => pure (.error e)

def releaseSlot : SessionM (Option Position) := do
  let _ ← fetchSub
  pure none

/-- Spending counts toward the daily cap on the dip-buy trigger only. -/
def recordDipBuy (trigger : EntryTrigger) : SessionM Unit :=
  if trigger = .dipBuy then do
    let _ ← spendRecord cfg.amountSol
    pure ()
  else pure ()

/-- After a confirmed buy: start the hold clock, fetch the balance, set up the position. -/
def trackPosition (mint : Pubkey) (trigger : EntryTrigger) (slot : Int) (sig : Signature) :
    SessionM (Option Position) := do
  let l ← Async.locals
  let boughtAt ← instantNow .boughtAt
  Async.assign fun l => { l with
    buying := some { trigger := trigger, slot := some slot, boughtAt := some boughtAt } }
  let balance ← fetchBalance balanceFetchAttempts mint
  match balance with
  | .error e => do
      notify (.orphan l.event.mint l.event.name l.event.symbol sig cfg.amountSol e)
      releaseSlot
  | .ok b =>
      let tokenUi := b.uiAmount
      if tokenUi ≤ 0 then releaseSlot
      else do
        let entryPriceSol := cfg.amountSol / tokenUi
        notify (.bought l.event.mint l.event.name l.event.symbol cfg.amountSol tokenUi
          entryPriceSol)
        pure (some
          { mint := l.event.mint
            name := l.event.name
            symbol := l.event.symbol
            entryPriceSol := entryPriceSol
            costSol := cfg.amountSol
            peakPct := 0
            boughtAt := boughtAt
            entryTrigger := trigger })

def buyInSlot (mint : Pubkey) (trigger : EntryTrigger) : SessionM (Option Position) := do
  let l ← Async.locals
  -- reserve a slot first; release on any failure path
  let slot ← fetchAdd
  Async.assign fun l => { l with buying := some { trigger := trigger, slot := some slot } }
  if (cfg.trading.maxPositions : Int) ≤ slot then releaseSlot
  else do
    let buyRes ← traderBuy cfg dryRun
      { mint := l.event.mint
        symbol := l.event.symbol
        amountSol := cfg.amountSol
        slippagePct := cfg.trading.slippage
        priorityFeeSol := cfg.trading.priorityFeeSol
        maxRetries := cfg.trading.buyTxRetries }
    match buyRes with
    | .ok (some sig) => do
        recordDipBuy cfg trigger
        trackPosition cfg mint trigger slot sig
    | .ok none => do
        recordDipBuy cfg trigger
        releaseSlot
    | .error _ => releaseSlot

def tryBuy (mint : Pubkey) (trigger : EntryTrigger) : SessionM (Option Position) := do
  enter (.tryBuy trigger)
  Async.assign fun l => { l with buying := some { trigger := trigger } }
  if trigger = .dipBuy then do
    let now ← instantNow .spendCheck
    let allowed ← spendCheck now cfg.amountSol
    match allowed with
    | .error _ => pure none
    | .ok () => buyInSlot cfg dryRun mint trigger
  else buyInSlot cfg dryRun mint trigger

def enterPosition (mint : Pubkey) (trigger : EntryTrigger) : SessionM Unit := do
  let position ← tryBuy cfg dryRun mint trigger
  Async.assign fun l => { l with position := position, buying := none }

/-- The gates in front of every `try_buy`: no open position, and the cooldown since the last sell
has elapsed. The three entry modes each carry their own copy of this ladder. -/
def gatedEntry (mint : Pubkey) (now : Instant) (trigger : EntryTrigger) : SessionM Unit := do
  let l ← Async.locals
  if l.position.isSome then pure ()
  else match l.lastSellAt with
  | some t =>
      if durationSince now t < fromSecs cfg.macd.cooldownSecs then pure ()
      else enterPosition cfg dryRun mint trigger
  | none => enterPosition cfg dryRun mint trigger

def dipBuyEntry (mint : Pubkey) (now : Instant) (u : PriceUpdate) : SessionM Unit := do
  let l ← Async.locals
  if l.dipBuyDetector.enabled then do
    let (detector, fired) := (l.dipBuyDetector.observe now u.priceSol u.poolSol).check now
    Async.assign fun l => { l with dipBuyDetector := detector }
    match fired with
    | some _ => gatedEntry cfg dryRun mint now .dipBuy
    | none => pure ()
  else pure ()

def capitulationEntry (mint : Pubkey) (now : Instant) (u : PriceUpdate) : SessionM Unit := do
  let l ← Async.locals
  if !l.dipBuyDetector.enabled && l.capDetector.enabled then do
    let (detector, fired) := (l.capDetector.observe now u.priceSol).check now u.priceSol
    Async.assign fun l => { l with capDetector := detector }
    match fired with
    | some _ => gatedEntry cfg dryRun mint now .capitulation
    | none => pure ()
  else pure ()

def macdEntry (mint : Pubkey) (now : Instant) (u : PriceUpdate) : SessionM Unit := do
  let l ← Async.locals
  let (aggregator, closed) := l.aggregator.onTick u.priceSol now
  Async.assign fun l => { l with aggregator := aggregator }
  match closed with
  | none => pure ()
  | some close => do
      let (macd, event) := l.macd.onClose close
      Async.assign fun l => { l with macd := macd }
      match event with
      | .crossover _ .bullish =>
          if l.dipBuyDetector.enabled then pure ()
          else if l.capDetector.enabled then pure ()
          else gatedEntry cfg dryRun mint now .macd
      | .crossover _ .bearish => pure ()
      | .noCross _ => pure ()
      | .warmup => pure ()

/-- Sell the open position, if any, for good: whatever the outcome, its slot is released. -/
def sellForGood (pct : Position → ℚ) (reason : SellReason) : SessionM Unit := do
  let l ← Async.locals
  match l.position with
  | none => pure ()
  | some pos => do
      Async.assign SessionLocals.take
      let _ ← trySell cfg dryRun pos (pct pos) reason
      let _ ← fetchSub
      Async.assign SessionLocals.settle

/-- The PnL exit: stop-loss, take-profit, trailing stop, time cap. A failed sell keeps the
position. -/
def pnlExit (price : ℚ) : SessionM Unit := do
  let l ← Async.locals
  match l.position with
  | none => pure ()
  | some pos => do
      let pct := pos.pnlPct price
      let pos := pos.updatePeak pct
      Async.assign fun l => { l with position := some pos }
      let now ← instantNow .exitAge
      let elapsedSecs := asSecs (durationSince now pos.boughtAt)
      match decideExit pos pct elapsedSecs cfg.trading cfg.dipBuyExit
        (parseTiers cfg.trading.dynamicTrailingStopThresholds)
        (parseTiers cfg.dipBuyExit.trailTiers) with
      | none => pure ()
      | some reason => do
          Async.assign SessionLocals.take
          let res ← trySell cfg dryRun pos pct (.exit reason)
          match res with
          | .ok () => do
              let _ ← fetchSub
              Async.assign SessionLocals.settle
              let soldAt ← instantNow .soldAt
              Async.assign fun l => { l with lastSellAt := some soldAt }
          | .error _ => Async.assign fun l => l.restore pos

/-- One price tick; `some ()` leaves the loop. -/
def onTick (mint : Pubkey) (u : PriceUpdate) : SessionM (Option Unit) := do
  Async.assign fun l => { l with
    lastPrice := some u.priceSol
    rugGuard := l.rugGuard.observe u.priceSol u.poolSol }
  let l ← Async.locals
  match l.rugGuard.isRugged cfg.rug u.priceSol u.poolSol with
  | some reason => do
      sellForGood cfg dryRun (fun pos => pos.pnlPct u.priceSol) (.rugDetected reason)
      pure (some ())
  | none => do
      pnlExit cfg dryRun u.priceSol
      let now ← instantNow .tick
      dipBuyEntry cfg dryRun mint now u
      capitulationEntry cfg dryRun mint now u
      macdEntry cfg dryRun mint now u
      pure none

def sessionRound (mint : Pubkey) : SessionM (Option Unit) := do
  let event ← selectTick
  match event with
  | .deadline => pure (some ())
  | .tick none => pure (some ())
  | .tick (some sample) => onTick cfg dryRun mint sample.update

def runSession (mint : Pubkey) : SessionM Unit := do
  let sessionStart ← instantNow .sessionStart
  let l ← Async.locals
  let deadline := if cfg.trading.maxMonitorTime = 0 then none
    else some (sessionStart + fromSecs cfg.trading.maxMonitorTime)
  spawnPricePoll l.event.mint
  Async.assign fun l => .start cfg l.event sessionStart
  sleepUntil deadline
  Async.loop (sessionRound cfg dryRun mint)
  -- force-sell anything still open before ending the session
  let l ← Async.locals
  sellForGood cfg dryRun (fun pos => (l.lastPrice.map pos.pnlPct).getD 0) .forcedExit

def handle : SessionM Unit := do
  let l ← Async.locals
  match Pubkey.fromStr l.event.mint with
  | none => pure ()
  | some mint => do
      let passed ← if cfg.filtersEnabled then runFilters mint else pure true
      if passed then runSession cfg dryRun mint else pure ()

/-- The task that `main` spawns for a migration: look up missing metadata, then `handle`. -/
def sessionTask : SessionM Unit := do
  let l ← Async.locals
  match l.event.symbol, Pubkey.fromStr l.event.mint with
  | none, some mint => do
      let looked ← fetchTokenMetadata mint
      match looked with
      | .ok (name, symbol) => Async.assign fun l =>
          { l with event := { l.event with name := some name, symbol := some symbol } }
      | .error _ => pure ()
      handle cfg dryRun
  | _, _ => handle cfg dryRun

end Program

end HadesPsTrader.Tasks
