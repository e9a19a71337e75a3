/- Module: HadesPsTrader/Tasks/Effects
   source: src/session.rs, src/copy_session.rs, src/pumpportal.rs, src/price_feed.rs, src/discord.rs
   digest: The operations of a trading task, one for each await point and each locked section. -/

import HadesPsTrader.Chain.Trader
import HadesPsTrader.Chain.Balance
import HadesPsTrader.Interaction.Process
import HadesPsTrader.Market.Position
import HadesPsTrader.Market.Rug

set_option autoImplicit false
set_option relaxedAutoImplicit false

namespace HadesPsTrader.Tasks

open HadesPsTrader.Market HadesPsTrader.Chain HadesPsTrader.Interaction

structure MigrationEvent where
  mint : String
  name : Option String
  symbol : Option String
  deriving DecidableEq

/-- One live trade by a followed wallet. -/
structure AlphaTrade where
  mint : String
  trader : String
  txType : String
  isPumpswap : Bool
  symbol : Option String
  tokenBalance : Option ℚ
  deriving DecidableEq

structure PriceUpdate where
  priceSol : ℚ
  poolSol : ℚ
  deriving DecidableEq

/-- A price update with the clock reading at which the poller sampled it. No task reads it. -/
structure Sample where
  update : PriceUpdate
  sampledAt : Instant
  deriving DecidableEq

/-- The text of a sell reason, with the figures it prints. -/
inductive SellReason
  | rugDetected (reason : RugReason)
  | exit (reason : ExitReason)
  | forcedExit
  | copyMaxHold
  | shutdown
  | mirrorAlphaClosed
  | copyForcedExit
  deriving DecidableEq

inductive Notice
  | bought (mint : String) (name symbol : Option String) (amountSol tokenUi entryPriceSol : ℚ)
  | sold (mint : String) (name symbol : Option String) (reason : SellReason)
      (pct netReturnSol : ℚ)
  | orphan (mint : String) (name symbol : Option String) (buyTx : Signature) (amountSol : ℚ)
      (error : BalanceError)
  deriving DecidableEq

inductive ClockSite
  | sessionStart | spendCheck | boughtAt | exitAge | tick | soldAt
  deriving DecidableEq

/-- The calls that a run is asked about. Entering one is a step of its own. -/
inductive Call
  | tryBuy (trigger : EntryTrigger)
  | trySell (reason : SellReason)
  | doSell (reason : SellReason)
  deriving DecidableEq

inductive Received (α : Type)
  | got (a : α)
  | lagged (n : Nat)
  | closed
  deriving DecidableEq

/-- The ready branch of the select of `run_session`; `tick none` is a closed price channel. -/
inductive SessionEvent
  | deadline
  | tick (sample : Option Sample)
  deriving DecidableEq

/-- The ready branch of the select of `copy_handle`. -/
inductive CopyEvent
  | deadline
  | shutdown (r : Received Unit)
  | mirror (r : Received AlphaTrade)
  | tick (sample : Option Sample)
  deriving DecidableEq

inductive Op
  | call (c : Call)
  | now (site : ClockSite)
  | fetchAdd
  | fetchSub
  | spendCheck (now : Instant) (amountSol : ℚ)
  | spendRecord (amountSol : ℚ)
  | buy (p : BuyParams)
  | sellAll (p : SellAllParams)
  | fetchTokenBalance (mint : Pubkey)
  | fetchSolBalance
  | notify (n : Notice)
  | fetchTokenMetadata (mint : Pubkey)
  | runFilters (mint : Pubkey)
  | spawnPricePoll (mint : String)
  | sleepUntil (deadline : Option Instant)
  | select
  | copySelect (mirrorOpen : Bool)
  | recv

/-- What an operation is answered: a trade is answered by everything the network replies to its
attempts, numbered from 0. -/
@[reducible] def Reply : Op → Type
  | .call _ => Unit
  | .now _ => Instant
  | .fetchAdd => Int
  | .fetchSub => Int
  | .spendCheck _ _ => Except ℚ Unit
  | .spendRecord _ => ℚ
  | .buy _ => Nat → SubmitAnswers
  | .sellAll _ => Nat → SubmitAnswers
  | .fetchTokenBalance _ => BalanceAnswers
  | .fetchSolBalance => Except String ℚ
  | .notify _ => Unit
  | .fetchTokenMetadata _ => Except String (String × String)
  | .runFilters _ => Bool
  | .spawnPricePoll _ => Unit
  | .sleepUntil _ => Unit
  | .select => SessionEvent
  | .copySelect _ => CopyEvent
  | .recv => Option Sample

section Operations

variable {L : Type}

abbrev TaskM (L : Type) := Async L Op Reply

abbrev TaskProc (L : Type) := Proc L Op Reply Unit

def enter (c : Call) : TaskM L Unit := Async.perform (Op.call c)
def instantNow (site : ClockSite) : TaskM L Instant := Async.perform (Op.now site)
def fetchAdd : TaskM L Int := Async.perform Op.fetchAdd
def fetchSub : TaskM L Int := Async.perform Op.fetchSub
def spendCheck (now : Instant) (amountSol : ℚ) : TaskM L (Except ℚ Unit) :=
  Async.perform (Op.spendCheck now amountSol)

/-- Record a spend and read the 24h total, in one locked section. -/
def spendRecord (amountSol : ℚ) : TaskM L ℚ := Async.perform (Op.spendRecord amountSol)

def notify (n : Notice) : TaskM L Unit := Async.perform (Op.notify n)
def fetchSolBalance : TaskM L (Except String ℚ) := Async.perform Op.fetchSolBalance
def fetchTokenMetadata (mint : Pubkey) : TaskM L (Except String (String × String)) :=
  Async.perform (Op.fetchTokenMetadata mint)

/-- The one-shot trading filters, which only read the chain. -/
def runFilters (mint : Pubkey) : TaskM L Bool := Async.perform (Op.runFilters mint)

def spawnPricePoll (mint : String) : TaskM L Unit := Async.perform (Op.spawnPricePoll mint)
def sleepUntil (deadline : Option Instant) : TaskM L Unit := Async.perform (Op.sleepUntil deadline)

def traderBuy (cfg : Config) (dryRun : Bool) (p : BuyParams) :
    TaskM L (Except BoxError (Option Signature)) := do
  let answers ← Async.perform (Op.buy p)
  pure (Chain.buy (jitoSettings cfg) p dryRun answers).result

def traderSellAll (cfg : Config) (dryRun : Bool) (p : SellAllParams) :
    TaskM L (Except BoxError (Option Signature)) := do
  let answers ← Async.perform (Op.sellAll p)
  pure (Chain.sellAll (jitoSettings cfg) p dryRun answers).result

def fetchBalance (attempts : Nat) (mint : Pubkey) : TaskM L (Except BalanceError TokenBalance) := do
  let answers ← Async.perform (Op.fetchTokenBalance mint)
  pure (Chain.fetchTokenBalance attempts answers)

end Operations

end HadesPsTrader.Tasks
