/- Module: HadesPsTrader/Feeds/Socket
   source: src/pumpportal.rs
   digest: The websocket listeners: connect, subscribe, pass events on, reconnect with backoff. -/

import HadesPsTrader.Interaction.Process
import HadesPsTrader.Tasks.Labels

set_option autoImplicit false
set_option relaxedAutoImplicit false

namespace HadesPsTrader.Feeds

open HadesPsTrader.Interaction
open Tasks (Value MigrationEvent AlphaTrade migration accountTrade)

inductive Message
  | text (text : String)
  | ping (payload : List Nat)
  | close
  | other
  deriving DecidableEq

/-- What a listener writes: its subscription, as the JSON of a value, and pongs. -/
inductive Outgoing
  | text (v : Value)
  | pong (payload : List Nat)

inductive ListenOp (α : Type)
  | connect
  | write (m : Outgoing)
  | read
  | send (a : α)
  | sleep (secs : Nat)

/-- What they are answered. The stream ends with `none`; a send says whether the receiver is still
there. -/
@[reducible] def ListenReply {α : Type} : ListenOp α → Type
  | .connect => Except String Unit
  | .write _ => Except String Unit
  | .read => Option (Except String Message)
  | .send _ => Bool
  | .sleep _ => Unit

structure ListenLocals where
  backoff : Nat := 1
  deriving DecidableEq

abbrev ListenM (α : Type) := Async ListenLocals (ListenOp α) ListenReply

/-- What tells the two listeners apart: the request they subscribe with, the event they send on for
the value of a text frame, and whether they leave the connection when the receiver is gone. -/
structure Subscription (α : Type) where
  request : Value
  event : Value → Option α
  leaves : Bool

section Program

variable {α : Type}

def connect : ListenM α (Except String Unit) := Async.perform ListenOp.connect
def write (m : Outgoing) : ListenM α (Except String Unit) := Async.perform (ListenOp.write m)
def read : ListenM α (Option (Except String Message)) := Async.perform ListenOp.read
def send (a : α) : ListenM α Bool := Async.perform (ListenOp.send a)
def sleep (secs : Nat) : ListenM α Unit := Async.perform (ListenOp.sleep secs)

/-- `u64::saturating_mul`. -/
def saturatingMul (a b : Nat) : Nat := min (a * b) (2 ^ 64 - 1)

-- `serde_json::from_str`, of which nothing is assumed
variable (fromStr : String → Option Value) (sub : Subscription α)

def eventOf (text : String) : Option α := (fromStr text).bind sub.event

def onMessage : Message → ListenM α (Option (Except String Unit))
  | .text text => match eventOf fromStr sub text with
    | none => pure none
    | some a => do
        let received ← send a
        if sub.leaves && !received then pure (some (.ok ())) else pure none
  | .ping payload => do
      let written ← write (.pong payload)
      match written with
      | .error e => pure (some (.error e))
      | .ok () => pure none
  | .close => pure (some (.ok ()))
  | .other => pure none

def readRound : ListenM α (Option (Except String Unit)) := do
  let msg ← read
  match msg with
  | none => pure (some (.ok ()))
  | some (.error e) => pure (some (.error e))
  | some (.ok m) => onMessage fromStr sub m

/-- `run_migration` and `run_account_trade`: one connection from the handshake to its end. -/
def runFeed : ListenM α (Except String Unit) := do
  let connected ← connect
  match connected with
  | .error e => pure (.error e)
  | .ok () => do
      let subscribed ← write (.text sub.request)
      match subscribed with
      | .error e => pure (.error e)
      | .ok () => Async.loop (readRound fromStr sub)

/-- Reconnect for ever; the backoff doubles up to 30 seconds, and is never reset. -/
def listen : ListenM α Unit :=
  Async.loop do
    let _ ← runFeed fromStr sub
    let l ← Async.locals
    sleep l.backoff
    Async.assign fun l => { l with backoff := min (saturatingMul l.backoff 2) 30 }
    pure none

end Program

/-- `subscribeMigration`; the outcome of a send is dropped. -/
def migrationFeed : Subscription MigrationEvent where
  request := .object [("method", .string "subscribeMigration")]
  event := migration
  leaves := false

/-- `subscribeAccountTrade` for the followed wallets. -/
def accountTradeFeed (walletKeys : List String) : Subscription AlphaTrade where
  request := .object
    [("method", .string "subscribeAccountTrade"), ("keys", .array (walletKeys.map .string))]
  event := accountTrade
  leaves := true

section Listeners

variable (fromStr : String → Option Value)

def migrationListener : ListenM MigrationEvent Unit := listen fromStr migrationFeed

def accountTradeListener (walletKeys : List String) : ListenM AlphaTrade Unit :=
  if walletKeys.isEmpty then pure ()
  else listen fromStr (accountTradeFeed walletKeys)

end Listeners

end HadesPsTrader.Feeds
