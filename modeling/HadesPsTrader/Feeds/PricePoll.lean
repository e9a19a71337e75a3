/- Module: HadesPsTrader/Feeds/PricePoll
   source: src/price_feed.rs
   digest: The price poll task: find the pool, then read its vaults at an interval. -/

import HadesPsTrader.Chain.PoolReads
import HadesPsTrader.Tasks.World

set_option autoImplicit false
set_option relaxedAutoImplicit false

namespace HadesPsTrader.Feeds

open HadesPsTrader.Interaction HadesPsTrader.Market HadesPsTrader.Chain
open Tasks (PriceUpdate Sample Poller Feed FeedStep World)

/-- The operations of a poll task. A sleep is set at `arm`, and over at `wake`. -/
inductive PollOp
  | findPool (mint : Pubkey)
  | readPool (pool : PoolInfo)
  | send (u : PriceUpdate)
  | arm (d : Duration)
  | wake
  | isClosed

/-- What they are answered: a discovery and a read by what the node replies to them, a send by
whether the receiver is still there. -/
@[reducible] def PollReply : PollOp → Type
  | .findPool _ => PoolRpc
  | .readPool _ => List Pubkey → Option (Except String (List (Option StoredAccount)))
  | .send _ => Bool
  | .arm _ => Unit
  | .wake => Unit
  | .isClosed => Bool

abbrev PollM := Async Unit PollOp PollReply

abbrev PollProc := Proc Unit PollOp PollReply Unit

def pollSleep (d : Duration) : PollM Unit := do
  Async.perform (PollOp.arm d)
  Async.perform PollOp.wake

/-- How `discover_with_retries` ends; a panic takes the task with it. -/
inductive Discovery
  | found (pool : PoolInfo)
  | gaveUp
  | panicked
  deriving DecidableEq

/-- The attempts of `discover_with_retries`, and the seconds it sleeps after each failed one. -/
def discoveryAttempts : Nat := 10
def discoveryInterval : Duration := fromSecs 2

/-- One attempt; `none` goes on to the next. -/
def discoverOnce (mint : Pubkey) : PollM (Option Discovery) := do
  let rpc ← Async.perform (PollOp.findPool mint)
  match findPool rpc mint with
  | .ok pool => pure (some (.found pool))
  | .error .panicked => pure (some .panicked)
  | .error (.failed _) => do
      pollSleep discoveryInterval
      pure none

def discoverFrom (mint : Pubkey) : Nat → PollM Discovery
  | 0 => pure .gaveUp
  | attempts + 1 => do
      let ended ← discoverOnce mint
      match ended with
      | some discovery => pure discovery
      | none => discoverFrom mint attempts

def discoverWithRetries (mint : Pubkey) : PollM Discovery := discoverFrom mint discoveryAttempts

section Program

variable (interval : Duration) (timeout : Nat)

/-- The end of a round: sleep, and leave when the receiver is gone. -/
def pollPause : PollM (Option Unit) := do
  pollSleep interval
  let closed ← Async.perform PollOp.isClosed
  pure (if closed then some () else none)

def pollRound (pool : PoolInfo) : PollM (Option Unit) := do
  let ask ← Async.perform (PollOp.readPool pool)
  match fetchPoolState ask pool timeout with
  | .ok state => do
      let received ← Async.perform (PollOp.send ⟨state.priceSol, state.poolSol⟩)
      if received then pollPause interval else pure (some ())
  | .error .panicked => pure (some ())
  | .error (.failed _) => pollPause interval

def pricePoll (mint : String) : PollM Unit :=
  match Pubkey.fromStr mint with
  | none => pure ()
  | some mintPk => do
      let discovery ← discoverWithRetries mintPk
      match discovery with
      | .found pool => Async.loop (pollRound interval timeout pool)
      | .gaveUp => pure ()
      | .panicked => pure ()

end Program

/-- What a poll task shares with its session: the clock, its timer and the channel. -/
structure PollWorld where
  clock : Instant
  timer : Option Instant := none
  channel : List PriceUpdate := []
  /-- How many updates the session has received, and whether it is gone. -/
  received : Nat := 0
  dropped : Bool := false

inductive PollEnv
  | advance (d : Duration)
  | receive
  | drop
  deriving DecidableEq

namespace PollWorld

variable (w : PollWorld)

def perform : (o : PollOp) → PollReply o → Option PollWorld
  | .findPool _, _ => some w
  | .readPool _, _ => some w
  | .send u, received =>
      if received = w.dropped then none
      else if received then some { w with channel := w.channel ++ [u] } else some w
  | .arm d, _ => some { w with timer := some (w.clock + d) }
  | .wake, _ => match w.timer with
    | none => none
    | some t => if t ≤ w.clock then some { w with timer := none } else none
  | .isClosed, closed => if closed = w.dropped then some w else none

def env : PollEnv → Option PollWorld
  | .advance d => some { w with clock := w.clock + d }
  | .receive => match w.dropped, w.channel with
    | false, _ :: rest => some { w with channel := rest, received := w.received + 1 }
    | _, _ => none
  | .drop => some { w with dropped := true }

end PollWorld

def polling : System PollWorld Unit PollOp PollReply PollEnv where
  exec w _ _ o r := w.perform o r
  env w e := (w.env e).map fun w' => (w', [])

/-- The node answers a lookup of accounts position by position. -/
def Faithful : (o : PollOp) → PollReply o → Prop
  | .findPool _, rpc => (∃ tokenAt, Positional rpc.tokenAccounts tokenAt) ∧
      ∃ ownerAt, Positional rpc.ownerAccounts ownerAt
  | .readPool _, ask => ∃ stored : Pubkey → Option StoredAccount,
      ∀ keys accounts, ask keys = some (.ok accounts) → accounts = keys.map stored
  | _, _ => True

end HadesPsTrader.Feeds
