/- Module: HadesPsTrader/Tasks/World
   source: src/main.rs, src/price_feed.rs, src/dip_buy.rs
   digest: The shared state of the bot and what its operations do to it. -/

import Mathlib.Logic.Function.Basic
import HadesPsTrader.Interaction.System
import HadesPsTrader.Tasks.Session
import HadesPsTrader.Tasks.CopySession

set_option autoImplicit false
set_option relaxedAutoImplicit false

namespace HadesPsTrader.Tasks

open HadesPsTrader.Market HadesPsTrader.Chain HadesPsTrader.Interaction

/-- The price poll task: looking for the pool, polling it, or gone (never started, or gave up). -/
inductive Poller
  | ended | discovering | polling
  deriving DecidableEq

/-- What belongs to one task: its price poll with the unbounded channel, and its deadline timer. -/
structure Feed where
  poller : Poller := .ended
  inHand : Option Sample := none
  queue : List Sample := []
  deadline : Option Instant := none
  fired : Bool := false
  deriving DecidableEq

/-- A broadcast receiver: the frames it can still see and how many it lost. -/
structure Receiver (α : Type) where
  queue : List α := []
  lost : Nat := 0
  deriving DecidableEq

def sellCapacity : Nat := 1024

def shutdownCapacity : Nat := 8

/-- A new frame; a receiver that is full loses its oldest one. -/
def Receiver.push {α : Type} (capacity : Nat) (r : Receiver α) (a : α) : Receiver α :=
  if r.queue.length < capacity then { r with queue := r.queue ++ [a] }
  else { queue := r.queue.tail ++ [a], lost := r.lost + 1 }

/-- The receiver after it received `x`, if it can receive that now. The senders live in `main` and
are never dropped while a task runs. -/
def Receiver.recv {α : Type} [DecidableEq α] (r : Receiver α) (x : Received α) :
    Option (Receiver α) :=
  if 0 < r.lost then
    if x = .lagged r.lost then some { r with lost := 0 } else none
  else match r.queue with
  | [] => none
  | a :: rest => if x = .got a then some { r with queue := rest } else none

/-- `main`: serving its feed, waiting for the copy positions to close, or gone. -/
inductive MainState
  | running
  | draining (checks : Nat)
  | exited (left : Int)
  deriving DecidableEq

/-- The shared state. `openPositions` is the slot counter of the mode the bot runs in. -/
structure World where
  clock : Instant
  openPositions : Int := 0
  tracker : DailySpendTracker
  feeds : Nat → Feed := fun _ => {}
  spawned : Nat := 0
  main : MainState := .running
  recent : String → Option Instant := fun _ => none
  recentWallet : String → Option Instant := fun _ => none
  mirror : Nat → Receiver AlphaTrade := fun _ => {}
  shutdown : Nat → Receiver Unit := fun _ => {}

namespace World

variable (w : World)

def setFeed (i : Nat) (f : Feed) : World := { w with feeds := Function.update w.feeds i f }

/-- `rx.recv()` of task `i`: the next sample, or `none` once the poller is gone. -/
def recvTick (i : Nat) (x : Option Sample) : Option World :=
  match x, (w.feeds i).queue with
  | some sample, next :: rest =>
      if sample = next then some (w.setFeed i { w.feeds i with queue := rest }) else none
  | none, [] => if (w.feeds i).poller = .ended then some w else none
  | some _, [] => none
  | none, _ :: _ => none

/-- The select of `run_session`: biased, the deadline before the price channel. -/
def answerSelect (i : Nat) (x : SessionEvent) : Option World :=
  match x with
  | .deadline => if (w.feeds i).fired then some w else none
  | .tick sample => if (w.feeds i).fired then none else w.recvTick i sample

/-- The select of `copy_handle`: deadline, shutdown, mirror feed, price channel. -/
def answerCopySelect (i : Nat) (mirrorOpen : Bool) (x : CopyEvent) : Option World :=
  let shutdownReady := 0 < (w.shutdown i).lost ∨ (w.shutdown i).queue ≠ []
  let mirrorReady := mirrorOpen ∧ (0 < (w.mirror i).lost ∨ (w.mirror i).queue ≠ [])
  match x with
  | .deadline => if (w.feeds i).fired then some w else none
  | .shutdown r =>
      if (w.feeds i).fired then none
      else ((w.shutdown i).recv r).map fun rx =>
        { w with shutdown := Function.update w.shutdown i rx }
  | .mirror r =>
      if (w.feeds i).fired ∨ shutdownReady ∨ !mirrorOpen then none
      else ((w.mirror i).recv r).map fun rx => { w with mirror := Function.update w.mirror i rx }
  | .tick sample =>
      if (w.feeds i).fired ∨ shutdownReady ∨ mirrorReady then none else w.recvTick i sample

/-- The shared state after task `i` performed `o` with answer `r`, if that answer can be given now.
What the network answers is arbitrary. -/
def perform (i : Nat) : (o : Op) → Reply o → Option World
  | .call _, _ => some w
  | .now _, t => if t = w.clock then some w else none
  | .fetchAdd, old =>
      if old = w.openPositions then some { w with openPositions := w.openPositions + 1 } else none
  | .fetchSub, old =>
      if old = w.openPositions then some { w with openPositions := w.openPositions - 1 } else none
  | .spendCheck now amountSol, allowed =>
      let (tracker, result) := w.tracker.check now amountSol
      if allowed = result then some { w with tracker := tracker } else none
  | .spendRecord amountSol, total =>
      let (tracker, result) := (w.tracker.record w.clock amountSol).total24h w.clock
      if total = result then some { w with tracker := tracker } else none
  | .buy _, _ => some w
  | .sellAll _, _ => some w
  | .fetchTokenBalance _, _ => some w
  | .fetchSolBalance, _ => some w
  | .notify _, _ => some w
  | .fetchTokenMetadata _, _ => some w
  | .runFilters _, _ => some w
  | .spawnPricePoll _, _ => some (w.setFeed i { w.feeds i with poller := .discovering })
  | .sleepUntil deadline, _ => some (w.setFeed i { w.feeds i with deadline := deadline })
  | .select, event => w.answerSelect i event
  | .copySelect mirrorOpen, event => w.answerCopySelect i mirrorOpen event
  | .recv, sample => w.recvTick i sample

end World

/-- What the network answers to the trades of a task and to its balance fetch. -/
structure Network where
  buy : Nat → SubmitAnswers
  sell : Nat → SubmitAnswers
  balance : BalanceAnswers

/-- The answers of task `i` that the shared state determines, with the network's filled in. -/
def World.answer (net : Network) (i : Nat) (w : World) : (o : Op) → Reply o
  | .call _ => ()
  | .now _ => w.clock
  | .fetchAdd => w.openPositions
  | .fetchSub => w.openPositions
  | .spendCheck now amountSol => (w.tracker.check now amountSol).2
  | .spendRecord amountSol => ((w.tracker.record w.clock amountSol).total24h w.clock).2
  | .buy _ => net.buy
  | .sellAll _ => net.sell
  | .fetchTokenBalance _ => net.balance
  | .fetchSolBalance => .ok 0
  | .notify _ => ()
  | .fetchTokenMetadata _ => .error ""
  | .runFilters _ => true
  | .spawnPricePoll _ => ()
  | .sleepUntil _ => ()
  | .select => if (w.feeds i).fired then .deadline else .tick (w.feeds i).queue.head?
  | .copySelect mirrorOpen =>
      if (w.feeds i).fired then .deadline
      else if (w.shutdown i).queue ≠ [] then .shutdown (.got ())
      else match mirrorOpen, (w.mirror i).queue with
        | true, t :: _ => .mirror (.got t)
        | _, _ => .tick (w.feeds i).queue.head?
  | .recv => (w.feeds i).queue.head?

/-- The steps of a poller, and the firing of the deadline timer. -/
inductive FeedStep
  | discovered
  | gaveUp
  | sample (u : PriceUpdate)
  | send
  | fire
  deriving DecidableEq

/-- One such step at a clock reading. A sample is stamped when it is read, and reaches the channel
later; a failed read sends nothing. -/
def Feed.step (clock : Instant) (f : Feed) : FeedStep → Option Feed
  | .discovered => if f.poller = .discovering then some { f with poller := .polling } else none
  | .gaveUp => if f.poller = .discovering then some { f with poller := .ended } else none
  | .sample u =>
      if f.poller = .polling ∧ f.inHand = none then some { f with inHand := some ⟨u, clock⟩ }
      else none
  | .send => match f.inHand with
    | none => none
    | some s => some { f with inHand := none, queue := f.queue ++ [s] }
  | .fire => match f.deadline with
    | none => none
    | some d => if d ≤ clock then some { f with fired := true } else none

/-- The steps that no trading task takes. -/
inductive Env
  | advance (d : Duration)
  | feed (i : Nat) (x : FeedStep)
  | migrate (e : MigrationEvent)
  | frame (t : AlphaTrade) (pause : Duration)
  | shutdownSignal
  | drainCheck
  deriving DecidableEq

namespace World

variable (w : World)

def background : Env → Option World
  | .advance d => some { w with clock := w.clock + d }
  | .feed i x => ((w.feeds i).step w.clock x).map (w.setFeed i)
  | .migrate _ => none
  | .frame _ _ => none
  | .shutdownSignal => none
  | .drainCheck => none

/-- The two gates of the copy loop in `main`, with what they leave in the maps: the per-wallet
cooldown, and after `pause` the per-mint re-entry cooldown. -/
def gateFrame (cc : CopyTradeConfig) (t : AlphaTrade) (pause : Duration) : World × Bool :=
  let blocked (last : Option Instant) (now : Instant) (cooldown : Duration) : Bool :=
    last.any fun last => durationSince now last < cooldown
  if blocked (w.recentWallet t.trader) w.clock (fromSecs cc.perWalletCooldownSecs) then (w, false)
  else
    let now := w.clock + pause
    let w := { w with
      recentWallet := Function.update w.recentWallet t.trader (some w.clock)
      clock := now }
    if blocked (w.recent t.mint) now (fromSecs cc.reentryCooldownSecs) then (w, false)
    else ({ w with recent := Function.update w.recent t.mint (some now) }, true)

end World

/-- How often `main` looks whether the copy positions have closed: 25 times, and once more. -/
def drainChecks : Nat := 25

section Systems

variable (cfg : Config) (dryRun : Bool)

/-- Graduation mode: `main` spawns a session for every migration it receives. -/
def graduation : System World SessionLocals Op Reply Env where
  exec w i _ o r := w.perform i o r
  env w e := match e with
    | .migrate ev => some ({ w with spawned := w.spawned + 1 },
        [sessionTask cfg dryRun (.start cfg ev w.clock)])
    | e => (w.background e).map fun w' => (w', [])

/-- Copy mode: `main` fans out sells, spawns a session for every buy that passes its gates, and
drains the positions on a shutdown signal. -/
def copyMode : System World CopyLocals Op Reply Env where
  exec w i _ o r := match w.main with
    | .exited _ => none
    | _ => w.perform i o r
  env w e := match w.main with
    | .exited _ => none
    | .running => match e with
      | .frame t pause =>
          if t.txType = "sell" then
            some ({ w with mirror := fun i =>
              if i < w.spawned then (w.mirror i).push sellCapacity t else w.mirror i }, [])
          else if t.txType ≠ "buy" then some (w, [])
          else if !t.isPumpswap then some (w, [])
          else match w.gateFrame cfg.copyTrade t pause with
            | (w', true) => some ({ w' with spawned := w'.spawned + 1 },
                [copyHandle cfg dryRun { alpha := t }])
            | (w', false) => some (w', [])
      | .shutdownSignal => some ({ w with
          main := .draining drainChecks
          shutdown := fun i =>
            if i < w.spawned then (w.shutdown i).push shutdownCapacity () else w.shutdown i }, [])
      | e => (w.background e).map fun w' => (w', [])
    | .draining checks => match e with
      | .drainCheck => match checks with
        | 0 => some ({ w with main := .exited w.openPositions }, [])
        | checks + 1 =>
            if w.openPositions = 0 then some ({ w with main := .draining 0 }, [])
            else some ({ w with main := .draining checks }, [])
      | e => (w.background e).map fun w' => (w', [])

def graduationStart (start : Instant) : Interaction.Config World SessionLocals Op Reply :=
  ⟨{ clock := start, tracker := .new cfg.dipBuy.dailySpendCapSol }, []⟩

def copyStart (start : Instant) : Interaction.Config World CopyLocals Op Reply :=
  ⟨{ clock := start, tracker := .new cfg.copyTrade.dailySpendCapSol }, []⟩

end Systems

/-! ### Scripted runs -/

/-- A configuration on which five ticks fire the dip-buy trigger. -/
def eager : Market.Config where
  trading :=
    { slippage := 10
      tradeAmount := 1000000000
      priorityFeeSol := 0
      profitTargetPercent := 0
      stopLossPercent := 0
      maxPositions := 5
      buyTxRetries := 0
      sellTxRetries := 0
      maxMonitorTime := 0
      maxHoldTime := 60
      dynamicTrailingStopThresholds := "" }
  macd := { candleIntervalSecs := 60, fast := 12, slow := 26, signal := 9, cooldownSecs := 0 }
  rug := { enabled := false }
  dipBuy :=
    { enabled := true
      windowSecs := 1
      minDrawdownPct := 0
      maxEntryQuantile := 1
      minPoolSolDrawdownPct := 0
      maxPoolSolDrawdownPct := 0
      minPoolSol := 0
      cooldownSecs := 0
      dailySpendCapSol := 2
      poolRecoverySecs := 0
      priceRecoverySecs := 0
      maxSessionAgeSecs := 0 }
  dipBuyExit := { takeProfitPct := 0, stopLossPct := 0, maxHoldSecs := 60, trailTiers := "" }

def prompt : SubmitAnswers where
  jitoTradeLocal := .transport ""
  jitoBlockhash := .ok ()
  sendBundle := .transport "" none
  tradeLocal := .response 200 true
  blockhash := .ok ()
  send := .accepted .lands
  polling := .steady (.ok (some ⟨none, some .confirmed⟩))

/-- Every trade confirms, and the wallet then holds one token. -/
def readyNet : Network where
  buy _ := prompt
  sell _ := prompt
  balance :=
    { mintAccount := fun _ => .ok (Pubkey.fromStr splTokenId)
      round := fun _ => ⟨.amount (some 1000000) 6, .ok []⟩ }

/-- The same, but no balance read succeeds. -/
def blindNet : Network :=
  { readyNet with balance := { readyNet.balance with round := fun _ => ⟨.error "", .ok []⟩ } }

/-- The same, but no sell gets its transaction. -/
def deafNet : Network :=
  { readyNet with sell := fun _ => { prompt with tradeLocal := .transport "" } }

def someMint : String := "11111111111111111111111111111111"

abbrev BotMove := Move World Op Reply Env

/-- Task `i` goes on for `n` steps, answered by the shared state and the network. -/
def go (net : Network) (i n : Nat) : List BotMove :=
  List.replicate n (.task i (World.answer net i))

/-- The poller of task `i` reads an update and sends it. -/
def price (i : Nat) (priceSol poolSol : ℚ) : List BotMove :=
  [.env (.feed i (.sample ⟨priceSol, poolSol⟩)), .env (.feed i .send)]

end HadesPsTrader.Tasks
