/- Module: HadesPsTrader/Feeds/PolledBot
   source: src/main.rs, src/session.rs, src/price_feed.rs, src/pumpportal.rs
   digest: Graduation mode together with its listener and the poll tasks of its sessions. -/

import HadesPsTrader.Feeds.ListenerRuns
import HadesPsTrader.Feeds.PollRefines

set_option autoImplicit false
set_option relaxedAutoImplicit false

namespace HadesPsTrader.Feeds

open HadesPsTrader.Interaction HadesPsTrader.Chain
open HadesPsTrader.Market (Instant Duration)
open Tasks (Sample World SessionLocals TaskProc Op Reply Value MigrationEvent SessionEvent)

/-- A poll task that a session has spawned, with its steps so far. The channel carries updates only;
when each of them was read is known from the steps. -/
structure PollSide where
  mint : String
  log : Trace PollWorld Unit PollOp PollReply PollEnv := []
  now : Interaction.Config PollWorld Unit PollOp PollReply

namespace PollSide

section Task

variable (interval : Duration) (timeout : Nat)

def spawn (mint : String) (clock : Instant) : PollSide where
  mint := mint
  now := pollStart interval timeout mint clock

def notes (side : PollSide) : PollNotes := pollNotes interval timeout side.mint side.log

/-- What the task has sent and its session has not received, with the times. -/
def waiting (side : PollSide) : List Sample :=
  (side.notes interval timeout).sent.drop side.now.shared.received

end Task

/-- The task has returned, and with it the only sender is gone. -/
def closed (side : PollSide) : Bool := side.now.tasks.all Proc.finished

def moved (side : PollSide) (e : Label Unit PollOp PollReply PollEnv)
    (now : Interaction.Config PollWorld Unit PollOp PollReply) : PollSide :=
  { side with log := side.log ++ [(side.now.shared, e)], now := now }

def after (side : PollSide) (e : PollEnv) : Option PollSide :=
  (side.now.shared.env e).map fun p => side.moved (.env e) ⟨p, side.now.tasks⟩

end PollSide

/-- The migration listener with its steps so far, its channel to `main`, and what `main` has
received from it. -/
structure Intake where
  log : Trace Unit ListenLocals (ListenOp MigrationEvent) ListenReply Empty := []
  now : Interaction.Config Unit ListenLocals (ListenOp MigrationEvent) ListenReply
  channel : List MigrationEvent := []
  received : List MigrationEvent := []

namespace Intake

variable (x : Intake)

def heard : Heard MigrationEvent := history 0 x.log

/-- What a step of the listener puts on the channel: an event that is sent while the receiver is
there. -/
def pushed : Label ListenLocals (ListenOp MigrationEvent) ListenReply Empty → List MigrationEvent
  | .perform _ _ (.send ev) true => [ev]
  | _ => []

def moved (e : Label ListenLocals (ListenOp MigrationEvent) ListenReply Empty)
    (now : Interaction.Config Unit ListenLocals (ListenOp MigrationEvent) ListenReply) : Intake :=
  { x with log := x.log ++ [((), e)], now := now, channel := x.channel ++ pushed e }

/-- `migrations.recv()`, which returns the head of the channel. -/
def taken (ev : MigrationEvent) : Intake :=
  { x with channel := x.channel.tail, received := x.received ++ [ev] }

end Intake

/-- The bot: its listener, its sessions and their poll tasks. The feeds of `world` have the timers
of the sessions only. -/
structure Bot where
  world : World
  intake : Intake
  tasks : List (TaskProc SessionLocals) := []
  polls : Nat → Option PollSide := fun _ => none

namespace Bot

variable (interval : Duration) (timeout : Nat) (b : Bot)

def setPoll (i : Nat) (side : PollSide) : Bot :=
  { b with polls := Function.update b.polls i (some side) }

/-- `rx.recv()` of session `i`: the head of its channel, or `none` once the channel is empty and its
sender gone. -/
def recvTick (i : Nat) (x : Option Sample) : Option Bot :=
  match b.polls i, x with
  | none, _ => none
  | some side, some sample =>
      if (side.waiting interval timeout).head? = some sample then
        (side.after .receive).map (b.setPoll i)
      else none
  | some side, none =>
      if side.now.shared.channel = [] ∧ side.closed ∧ side.now.shared.dropped = false then some b
      else none

/-- The select of `run_session`: biased, the deadline before the price channel. -/
def answerSelect (i : Nat) (x : SessionEvent) : Option Bot :=
  match x with
  | .deadline => if (b.world.feeds i).fired then some b else none
  | .tick sample => if (b.world.feeds i).fired then none else b.recvTick interval timeout i sample

/-- The operations of a session, as in the shared state except for those on its price feed. The
operations of copy sessions are not among them. -/
def perform (i : Nat) : (o : Op) → Reply o → Option Bot
  | .spawnPricePoll mint, _ => some (b.setPoll i (.spawn interval timeout mint b.world.clock))
  | .select, event => b.answerSelect interval timeout i event
  | .recv, _ => none
  | .copySelect _, _ => none
  | o, r => (b.world.perform i o r).map fun w => { b with world := w }

def setTask (i : Nat) (t : TaskProc SessionLocals) : Bot := { b with tasks := b.tasks.set i t }

def advance (d : Duration) : Bot :=
  { b with
    world := { b.world with clock := b.world.clock + d }
    polls := fun i => (b.polls i).bind fun side => side.after (.advance d) }

end Bot

section Runs

variable (cfg : Market.Config) (dryRun : Bool) (fromStr : String → Option Value)
  (interval : Duration) (timeout : Nat)

def botStart (start : Instant) : Bot where
  world := (Tasks.graduationStart cfg start).shared
  intake := { now := ⟨(), [migrationListener fromStr {}]⟩ }

def Bot.migrate (b : Bot) (ev : MigrationEvent) : Bot :=
  { b with
    world := { b.world with spawned := b.world.spawned + 1 }
    intake := b.intake.taken ev
    tasks := b.tasks ++ [Tasks.sessionTask cfg dryRun (.start cfg ev b.world.clock)] }

/-- Runs of the bot, with the operations that its sessions performed. The node answers the poll
tasks faithfully, a session's receiver lives as long as the session, and that of `main` for ever. -/
inductive BotRun (start : Instant) : List (Nat × Sigma Reply) → Bot → Prop
  | start : BotRun start [] (botStart cfg fromStr start)
  | perform {ops : List (Nat × Sigma Reply)} {b b' : Bot} {i : Nat} {l : SessionLocals} {o : Op}
      {resume : Reply o → TaskProc SessionLocals} {r : Reply o} (before : BotRun start ops b)
      (pending : b.tasks[i]? = some (.op l o resume))
      (granted : b.perform interval timeout i o r = some b') :
      BotRun start (ops ++ [(i, ⟨o, r⟩)]) (b'.setTask i (resume r))
  | unroll {ops : List (Nat × Sigma Reply)} {b : Bot} {i : Nat} {β : Type} {l : SessionLocals}
      {body : SessionLocals → Proc SessionLocals Op Reply (Option β)}
      {exit : SessionLocals → β → TaskProc SessionLocals} (before : BotRun start ops b)
      (pending : b.tasks[i]? = some (.loop l body exit)) :
      BotRun start ops (b.setTask i (Proc.unroll l body exit))
  | advance {ops : List (Nat × Sigma Reply)} {b : Bot} (d : Duration)
      (before : BotRun start ops b) : BotRun start ops (b.advance d)
  | fire {ops : List (Nat × Sigma Reply)} {b : Bot} {i : Nat} {w : World}
      (before : BotRun start ops b) (granted : b.world.background (.feed i .fire) = some w) :
      BotRun start ops { b with world := w }
  | poll {ops : List (Nat × Sigma Reply)} {b : Bot} {i : Nat} {side : PollSide}
      {e : Label Unit PollOp PollReply PollEnv}
      {now : Interaction.Config PollWorld Unit PollOp PollReply} (before : BotRun start ops b)
      (here : b.polls i = some side) (moved : Step polling side.now e now)
      (own : ∀ x, e ≠ .env x) (faithful : faithfully side.log side.now e) :
      BotRun start ops (b.setPoll i (side.moved e now))
  | drop {ops : List (Nat × Sigma Reply)} {b : Bot} {i : Nat} {side side' : PollSide}
      (before : BotRun start ops b) (here : b.polls i = some side)
      (ended : ∀ t, b.tasks[i]? = some t → t.finished = true)
      (gone : side.after .drop = some side') :
      BotRun start ops (b.setPoll i side')
  | listen {ops : List (Nat × Sigma Reply)} {b : Bot}
      {e : Label ListenLocals (ListenOp MigrationEvent) ListenReply Empty}
      {now : Interaction.Config Unit ListenLocals (ListenOp MigrationEvent) ListenReply}
      (before : BotRun start ops b) (moved : Step (alone MigrationEvent) b.intake.now e now)
      (present : ∀ j l ev r, e = .perform j l (.send ev) r → r = true) :
      BotRun start ops { b with intake := b.intake.moved e now }
  | migrate {ops : List (Nat × Sigma Reply)} {b : Bot} {ev : MigrationEvent}
      (before : BotRun start ops b) (next : b.intake.channel.head? = some ev) :
      BotRun start ops (b.migrate cfg dryRun ev)

end Runs

end HadesPsTrader.Feeds
