/- Module: HadesPsTrader/Feeds/BotRefines
   source: src/main.rs, src/session.rs, src/price_feed.rs
   digest: The bot with its poll tasks refines graduation mode. -/

import HadesPsTrader.Feeds.PolledBot
import HadesPsTrader.Runs.OnePoll
import HadesPsTrader.Runs.SessionEvents

set_option autoImplicit false
set_option relaxedAutoImplicit false

namespace HadesPsTrader.Feeds

open HadesPsTrader.Interaction HadesPsTrader.Chain
open HadesPsTrader.Market (Instant Duration DailySpendTracker)
open Tasks (Sample Feed FeedStep World SessionLocals TaskProc Op Reply Value MigrationEvent
  SessionEvent GradTrace GradRun graduation graduationStart receivedTicks sampleOf lookups migrations
  migrations_aside migrations_migrate migrations_still)

section Polls

variable {interval : Duration} {timeout : Nat} {side side' : PollSide}

def PollSide.Runs (interval : Duration) (timeout : Nat) (side : PollSide) : Prop :=
  ∃ start, Run polling faithfully (pollStart interval timeout side.mint start) side.log side.now

theorem after_env {e : PollEnv} (moved : side.after e = some side') :
    side.now.shared.env e = some side'.now.shared ∧ side'.mint = side.mint ∧
      side'.log = side.log ++ [(side.now.shared, .env e)] ∧ side'.now.tasks = side.now.tasks := by
  obtain ⟨p, granted, rfl⟩ := Option.map_eq_some_iff.mp moved
  exact ⟨granted, rfl, rfl, rfl⟩

theorem notes_after {e : PollEnv} (moved : side.after e = some side') :
    side'.notes interval timeout = side.notes interval timeout := by
  obtain ⟨_, mint, log, _⟩ := after_env moved
  rw [PollSide.notes, PollSide.notes, mint, log]
  exact ghost_env 0 side.log side.now.shared e

theorem PollSide.Runs.after {e : PollEnv} (runs : side.Runs interval timeout)
    (moved : side.after e = some side') : side'.Runs interval timeout := by
  obtain ⟨start, run⟩ := runs
  obtain ⟨p, granted, rfl⟩ := Option.map_eq_some_iff.mp moved
  have spawned : polling.env side.now.shared e = some (p, []) := by
    change (side.now.shared.env e).map _ = _
    rw [granted]
    rfl
  have stepped := run.step (e := .env e) trivial (.env spawned)
  rw [List.append_nil] at stepped
  exact ⟨start, stepped⟩

theorem PollSide.Runs.moved {e : Label Unit PollOp PollReply PollEnv}
    {now : Interaction.Config PollWorld Unit PollOp PollReply} (runs : side.Runs interval timeout)
    (faithful : faithfully side.log side.now e) (moved : Step polling side.now e now) :
    (side.moved e now).Runs interval timeout := by
  obtain ⟨start, run⟩ := runs
  exact ⟨start, run.step faithful moved⟩

theorem PollSide.Runs.delivered (runs : side.Runs interval timeout) :
    Delivered (side.notes interval timeout) side.now.shared := by
  obtain ⟨start, run⟩ := runs
  exact delivered_of_run run

end Polls

/-! ### One step -/

/-- The shared state has what a poll task did, as long as its session is there. -/
structure Shows (interval : Duration) (timeout : Nat) (i : Nat) (side : PollSide) (w : World) :
    Prop where
  runs : side.Runs interval timeout
  feed : side.now.shared.dropped = false →
    Abstracts i (side.notes interval timeout) side.now.shared w

/-- The bot agrees with the shared state that its sessions see. -/
structure Agrees (interval : Duration) (timeout : Nat) (b : Bot) (w : World) : Prop where
  shared : { w with feeds := b.world.feeds } = b.world
  timers : ∀ i, (w.feeds i).deadline = (b.world.feeds i).deadline ∧
    (w.feeds i).fired = (b.world.feeds i).fired
  polled : ∀ i side, b.polls i = some side → Shows interval timeout i side w

section Steps

variable {interval : Duration} {timeout : Nat} {b b' : Bot} {w : World} {i : Nat}
  {cfg : Market.Config} {dryRun : Bool}

theorem Abstracts.alike {g : PollNotes} {p : PollWorld} {w' : World} (same : Abstracts i g p w)
    (clock : w'.clock = w.clock) (feed : w'.feeds i = w.feeds i) : Abstracts i g p w' := by
  obtain ⟨time, poller, inHand, queue⟩ := same
  rw [← feed] at poller inHand queue
  exact ⟨clock.trans time, poller, inHand, queue⟩

theorem Abstracts.other {g : PollNotes} {p : PollWorld} {j : Nat} {f : Feed} (other : j ≠ i)
    (same : Abstracts j g p w) : Abstracts j g p (w.setFeed i f) :=
  same.alike rfl (World.setFeed_other other f)

theorem Shows.other {side : PollSide} {j : Nat} {f : Feed} (other : j ≠ i)
    (shows_ : Shows interval timeout j side w) : Shows interval timeout j side (w.setFeed i f) :=
  ⟨shows_.runs, fun here => (shows_.feed here).other other⟩

theorem Agrees.clock (agrees : Agrees interval timeout b w) : w.clock = b.world.clock := by
  have same := congrArg World.clock agrees.shared
  exact same

theorem Agrees.setPoll {side : PollSide} {f : Feed} (agrees : Agrees interval timeout b w)
    (timer : f.deadline = (w.feeds i).deadline ∧ f.fired = (w.feeds i).fired)
    (shown : Shows interval timeout i side (w.setFeed i f)) :
    Agrees interval timeout (b.setPoll i side) (w.setFeed i f) where
  shared := agrees.shared
  timers j := by
    by_cases same : j = i
    · subst same
      rw [World.setFeed_self]
      exact ⟨timer.1.trans (agrees.timers j).1, timer.2.trans (agrees.timers j).2⟩
    · rw [World.setFeed_other same]
      exact agrees.timers j
  polled j side' polled := by
    rw [Bot.setPoll] at polled
    dsimp only at polled
    by_cases same : j = i
    · subst same
      rw [Function.update_self] at polled
      cases polled
      exact shown
    · rw [Function.update_of_ne same] at polled
      exact (agrees.polled j side' polled).other same

/-- A feed after its timer was set or has fired. -/
def timed (f : Feed) (deadline : Option Instant) (fired : Bool) : Feed :=
  { f with deadline := deadline, fired := fired }

theorem Agrees.setTimer {deadline : Option Instant} {fired : Bool}
    (agrees : Agrees interval timeout b w) :
    Agrees interval timeout
      { b with world := b.world.setFeed i (timed (b.world.feeds i) deadline fired) }
      (w.setFeed i (timed (w.feeds i) deadline fired)) where
  shared := by
    have same := agrees.shared
    rw [World.setFeed, World.setFeed]
    conv_rhs => rw [← same]
  timers j := by
    by_cases same : j = i
    · subst same
      rw [World.setFeed_self, World.setFeed_self]
      exact ⟨rfl, rfl⟩
    · rw [World.setFeed_other same, World.setFeed_other same]
      exact agrees.timers j
  polled j side polled := by
    have shown := agrees.polled j side polled
    by_cases same : j = i
    · subst same
      refine ⟨shown.runs, ?_⟩
      intro here
      obtain ⟨clock, poller, inHand, queue⟩ := shown.feed here
      exact .setFeed clock poller inHand queue
    · exact shown.other same

theorem Polled.moves {f : Feed} (polled : Polled w.clock (w.feeds i) f) :
    (graduation cfg dryRun).Moves w [] (w.setFeed i f) := by
  cases polled with
  | idle =>
      rw [setFeed_same]
      exact .rest
  | @stepped _ x taken _ =>
      apply System.Moves.one (e := .feed i x)
      change (World.background w (.feed i x)).map _ = _
      rw [World.background, taken]
      rfl

theorem Polled.timer {clock : Instant} {f f' : Feed} (polled : Polled clock f f') :
    f'.deadline = f.deadline ∧ f'.fired = f.fired := by
  cases polled with
  | idle => exact ⟨rfl, rfl⟩
  | @stepped _ x taken poller =>
      cases x with
      | discovered =>
          rw [Feed.step] at taken
          split_ifs at taken
          cases taken
          exact ⟨rfl, rfl⟩
      | gaveUp =>
          rw [Feed.step] at taken
          split_ifs at taken
          cases taken
          exact ⟨rfl, rfl⟩
      | sample u =>
          rw [Feed.step] at taken
          split_ifs at taken
          cases taken
          exact ⟨rfl, rfl⟩
      | send =>
          rw [Feed.step] at taken
          split at taken
          · cases taken
          · cases taken
            exact ⟨rfl, rfl⟩
      | fire => exact absurd rfl poller

theorem setFeed_setFeed (f f' : Feed) : (w.setFeed i f).setFeed i f' = w.setFeed i f' := by
  rw [World.setFeed, World.setFeed, World.setFeed, Function.update_idem]

theorem Agrees.spawn {mint : String} (agrees : Agrees interval timeout b w)
    (unpolled : (w.feeds i).Unpolled) :
    ∃ f, (graduation cfg dryRun).Moves
        (w.setFeed i { w.feeds i with poller := .discovering }) [] (w.setFeed i f) ∧
      Agrees interval timeout (b.setPoll i (.spawn interval timeout mint b.world.clock))
        (w.setFeed i f) := by
  generalize spawned : w.setFeed i { w.feeds i with poller := .discovering } = w₁
  have feed : w₁.feeds i = { w.feeds i with poller := .discovering } := by
    rw [← spawned, World.setFeed_self]
  have clock : w₁.clock = b.world.clock := by
    rw [← spawned]
    exact agrees.clock
  have looking : Spawned (w₁.feeds i) := by
    rw [feed]
    exact ⟨rfl, unpolled.inHand, unpolled.queue⟩
  have started : ∃ f, Polled w₁.clock (w₁.feeds i) f ∧
      Abstracts i (.start mint) { clock := b.world.clock } (w₁.setFeed i f) :=
    Abstracts.spawned clock looking
  obtain ⟨f, polled, same⟩ := started
  have moves : (graduation cfg dryRun).Moves w₁ [] (w₁.setFeed i f) := polled.moves
  have timer := polled.timer
  rw [feed] at timer
  rw [← spawned, setFeed_setFeed] at moves same
  rw [← spawned]
  refine ⟨f, moves, agrees.setPoll timer ⟨⟨b.world.clock, .start⟩, ?_⟩⟩
  exact fun _ => same

theorem recvTick_cases {x : Option Sample} (granted : b.recvTick interval timeout i x = some b') :
    ∃ side, b.polls i = some side ∧
      ((∃ s side', x = some s ∧ (side.waiting interval timeout).head? = some s ∧
          side.after .receive = some side' ∧ b' = b.setPoll i side') ∨
        (x = none ∧ side.now.shared.channel = [] ∧ side.closed = true ∧
          side.now.shared.dropped = false ∧ b' = b)) := by
  unfold Bot.recvTick at granted
  cases polled : b.polls i with
  | none =>
      rw [polled] at granted
      cases granted
  | some side =>
      rw [polled] at granted
      refine ⟨side, rfl, ?_⟩
      cases x with
      | none =>
          obtain ⟨⟨empty, closed, present⟩, same⟩ := Option.ite_none_right_eq_some.mp granted
          exact .inr ⟨rfl, empty, closed, present, (Option.some.inj same).symm⟩
      | some s =>
          obtain ⟨head, answered⟩ := Option.ite_none_right_eq_some.mp granted
          obtain ⟨side', moved, rfl⟩ := Option.map_eq_some_iff.mp answered
          exact .inl ⟨s, side', rfl, head, moved, rfl⟩

theorem Agrees.recvTick {x : Option Sample} (agrees : Agrees interval timeout b w)
    (granted : b.recvTick interval timeout i x = some b') :
    ∃ w', w.recvTick i x = some w' ∧ Agrees interval timeout b' w' := by
  obtain ⟨side, polled, received | finished⟩ := recvTick_cases granted
  · obtain ⟨sample, side', rfl, head, moved, rfl⟩ := received
    obtain ⟨received, _⟩ := after_env moved
    have shown := agrees.polled i side polled
    have present : side.now.shared.dropped = false := by
      rw [PollWorld.env] at received
      split at received
      · assumption
      · cases received
    obtain ⟨s, rest, queued, same⟩ := (shown.feed present).receive shown.runs.delivered received
    have first : s = sample := by
      have queue := (shown.feed present).queue
      rw [queued] at queue
      rw [PollSide.waiting, ← queue] at head
      exact Option.some.inj head
    subst first
    refine ⟨w.setFeed i { w.feeds i with queue := rest }, ?_, ?_⟩
    · simp only [World.recvTick, queued, if_pos]
    · apply agrees.setPoll
      · exact ⟨rfl, rfl⟩
      refine ⟨shown.runs.after moved, ?_⟩
      intro _
      rw [notes_after moved]
      exact same
  · obtain ⟨rfl, empty, closed, present, rfl⟩ := finished
    obtain ⟨⟨start, run⟩, feed⟩ := agrees.polled i side polled
    have same := feed present
    obtain ⟨t, task⟩ := pending_task run
    have finished : t.finished = true :=
      List.all_eq_true.mp closed t (List.mem_of_getElem? task)
    have queue : (w.feeds i).queue = [] := by
      have channel := (delivered_of_run run).channel
      rw [empty] at channel
      rw [same.queue]
      exact List.map_eq_nil_iff.mp channel.symm
    have ended : (w.feeds i).poller = .ended :=
      same.poller.trans ((ended_iff_finished run present task).mpr finished)
    refine ⟨w, ?_, agrees⟩
    simp only [World.recvTick, queue, ended, if_pos]

end Steps

section Operations

variable {interval : Duration} {timeout : Nat} {b b' : Bot} {w v : World} {i : Nat} {o : Op}
  {r : Reply o} {cfg : Market.Config} {dryRun : Bool}

/-- The operations that see nothing of a feed. -/
def feedless : Op → Bool
  | .spawnPricePoll _ => false
  | .sleepUntil _ => false
  | .select => false
  | .copySelect _ => false
  | .recv => false
  | _ => true

theorem perform_feedless (plain : feedless o = true) (fs : Nat → Feed)
    (granted : v.perform i o r = some w) :
    World.perform { v with feeds := fs } i o r = some { w with feeds := fs } ∧
      w.feeds = v.feeds := by
  cases o with
  | now site =>
      obtain ⟨rfl, rfl⟩ := World.perform_now.mp granted
      exact ⟨World.perform_now.mpr ⟨rfl, rfl⟩, rfl⟩
  | fetchAdd =>
      obtain ⟨rfl, rfl⟩ := World.perform_fetchAdd.mp granted
      exact ⟨World.perform_fetchAdd.mpr ⟨rfl, rfl⟩, rfl⟩
  | fetchSub =>
      obtain ⟨rfl, rfl⟩ := World.perform_fetchSub.mp granted
      exact ⟨World.perform_fetchSub.mpr ⟨rfl, rfl⟩, rfl⟩
  | spendCheck now amountSol =>
      obtain ⟨rfl, rfl⟩ := World.perform_spendCheck.mp granted
      exact ⟨World.perform_spendCheck.mpr ⟨rfl, rfl⟩, rfl⟩
  | spendRecord amountSol =>
      obtain ⟨rfl, rfl⟩ := World.perform_spendRecord.mp granted
      exact ⟨World.perform_spendRecord.mpr ⟨rfl, rfl⟩, rfl⟩
  | spawnPricePoll mint => cases plain
  | sleepUntil deadline => cases plain
  | select => cases plain
  | copySelect mirrorOpen => cases plain
  | recv => cases plain
  | _ =>
      cases granted
      exact ⟨rfl, rfl⟩

theorem bot_feedless (plain : feedless o = true) : b.perform interval timeout i o r =
    (b.world.perform i o r).map fun w => { b with world := w } := by
  cases o with
  | spawnPricePoll mint => cases plain
  | sleepUntil deadline => cases plain
  | select => cases plain
  | copySelect mirrorOpen => cases plain
  | recv => cases plain
  | _ => rfl

theorem Agrees.plain (agrees : Agrees interval timeout b w) (plain : feedless o = true)
    (granted : b.world.perform i o r = some v) :
    ∃ w', w.perform i o r = some w' ∧ Agrees interval timeout { b with world := v } w' := by
  have same : { b.world with feeds := w.feeds } = w := by
    rw [← agrees.shared]
  obtain ⟨granted', feeds⟩ := perform_feedless plain w.feeds granted
  rw [same] at granted'
  refine ⟨_, granted', rfl, ?_, ?_⟩
  · intro j
    rw [feeds]
    exact agrees.timers j
  · intro j side polled
    have shown := agrees.polled j side polled
    have later : v.clock = w.clock := (World.perform_clock granted).1.trans agrees.clock.symm
    exact ⟨shown.runs, fun here => (shown.feed here).alike later rfl⟩

theorem perform_cases (granted : b.perform interval timeout i o r = some b') :
    (∃ mint, o = .spawnPricePoll mint ∧
      b' = b.setPoll i (.spawn interval timeout mint b.world.clock)) ∨
    (∃ s side side', sampleOf o r = some s ∧ b.polls i = some side ∧
      (side.waiting interval timeout).head? = some s ∧ side.after .receive = some side' ∧
      b' = b.setPoll i side') ∨
    (sampleOf o r = none ∧ ∃ v, b' = { b with world := v }) := by
  cases plain : feedless o with
  | true =>
      rw [bot_feedless plain] at granted
      obtain ⟨w, _, rfl⟩ := Option.map_eq_some_iff.mp granted
      refine .inr (.inr ⟨?_, w, rfl⟩)
      cases o with
      | select => cases plain
      | _ => rfl
  | false =>
    cases o with
    | spawnPricePoll mint =>
        cases granted
        exact .inl ⟨mint, rfl, rfl⟩
    | sleepUntil deadline =>
        cases granted
        exact .inr (.inr ⟨rfl, _, rfl⟩)
    | select =>
        have granted : b.answerSelect interval timeout i r = some b' := granted
        cases r with
        | deadline =>
            obtain ⟨_, same⟩ := Option.ite_none_right_eq_some.mp granted
            cases same
            exact .inr (.inr ⟨rfl, _, rfl⟩)
        | tick x =>
            obtain ⟨_, received⟩ := Option.ite_none_left_eq_some.mp granted
            obtain ⟨side, polled, given | finished⟩ := recvTick_cases received
            · obtain ⟨s, side', rfl, head, moved, rfl⟩ := given
              exact .inr (.inl ⟨s, side, side', rfl, polled, head, moved, rfl⟩)
            · obtain ⟨rfl, _, _, _, rfl⟩ := finished
              exact .inr (.inr ⟨rfl, _, rfl⟩)
    | copySelect mirrorOpen => cases granted
    | recv => cases granted
    | _ => cases plain

theorem perform_rest (granted : b.perform interval timeout i o r = some b') :
    b'.tasks = b.tasks ∧ b'.intake = b.intake := by
  rcases perform_cases granted with ⟨_, _, rfl⟩ | ⟨_, _, _, _, _, _, _, rfl⟩ | ⟨_, _, rfl⟩
  · exact ⟨rfl, rfl⟩
  · exact ⟨rfl, rfl⟩
  · exact ⟨rfl, rfl⟩

theorem Agrees.perform (agrees : Agrees interval timeout b w)
    (unpolled : ∀ mint, o = .spawnPricePoll mint → (w.feeds i).Unpolled)
    (granted : b.perform interval timeout i o r = some b') :
    ∃ w₁ w₂, w.perform i o r = some w₁ ∧ (graduation cfg dryRun).Moves w₁ [] w₂ ∧
      Agrees interval timeout b' w₂ := by
  cases plain : feedless o with
  | true =>
      rw [bot_feedless plain] at granted
      obtain ⟨v, performed, rfl⟩ := Option.map_eq_some_iff.mp granted
      obtain ⟨w', granted', agrees'⟩ := agrees.plain plain performed
      exact ⟨w', w', granted', .rest, agrees'⟩
  | false =>
    cases o with
    | spawnPricePoll mint =>
        cases granted
        obtain ⟨f, moves, agrees'⟩ := agrees.spawn (unpolled mint rfl)
        exact ⟨_, _, rfl, moves, agrees'⟩
    | sleepUntil deadline =>
        cases granted
        refine ⟨_, _, rfl, .rest, ?_⟩
        have timer : timed (w.feeds i) deadline (b.world.feeds i).fired =
            { w.feeds i with deadline := deadline } := by
          rw [timed, ← (agrees.timers i).2]
        rw [← timer]
        exact agrees.setTimer
    | select =>
        have granted : b.answerSelect interval timeout i r = some b' := granted
        have fired := (agrees.timers i).2
        cases r with
        | deadline =>
            obtain ⟨due, same⟩ := Option.ite_none_right_eq_some.mp granted
            cases same
            exact ⟨w, w, if_pos (fired.trans due), .rest, agrees⟩
        | tick sample =>
            obtain ⟨early, received⟩ := Option.ite_none_left_eq_some.mp granted
            obtain ⟨w', received', agrees'⟩ := agrees.recvTick received
            refine ⟨w', w', ?_, .rest, agrees'⟩
            rw [← fired] at early
            exact (if_neg early).trans received'
    | copySelect mirrorOpen => cases granted
    | recv => cases granted
    | _ => cases plain

end Operations

section Others

variable {interval : Duration} {timeout : Nat} {b : Bot} {w v : World} {i : Nat}
  {cfg : Market.Config} {dryRun : Bool}

theorem Agrees.setTask {t : TaskProc SessionLocals} (agrees : Agrees interval timeout b w) :
    Agrees interval timeout (b.setTask i t) w :=
  ⟨agrees.shared, agrees.timers, agrees.polled⟩

theorem Agrees.poll {side : PollSide} {e : Label Unit PollOp PollReply PollEnv}
    {now : Interaction.Config PollWorld Unit PollOp PollReply}
    (agrees : Agrees interval timeout b w) (here : b.polls i = some side)
    (moved : Step polling side.now e now) (own : ∀ x, e ≠ .env x)
    (faithful : faithfully side.log side.now e) :
    ∃ w', (graduation cfg dryRun).Moves w [] w' ∧
      Agrees interval timeout (b.setPoll i (side.moved e now)) w' := by
  obtain ⟨runs, feed⟩ := agrees.polled i side here
  have kept := dropped_of_step moved own
  cases present : now.shared.dropped with
  | true =>
      refine ⟨w, .rest, ?_⟩
      rw [← setFeed_same (w := w) (i := i)]
      apply agrees.setPoll ⟨rfl, rfl⟩
      refine ⟨runs.moved faithful moved, ?_⟩
      intro there
      have gone : now.shared.dropped = false := there
      rw [present] at gone
      cases gone
  | false =>
      have runs' := runs.moved faithful moved
      obtain ⟨start, run⟩ := runs
      obtain ⟨f, polled, same⟩ := (feed (kept.symm.trans present)).step run moved own present
      exact ⟨_, polled.moves, agrees.setPoll polled.timer ⟨runs', fun _ => same⟩⟩

theorem Agrees.drop {side side' : PollSide} (agrees : Agrees interval timeout b w)
    (here : b.polls i = some side) (gone : side.after .drop = some side') :
    Agrees interval timeout (b.setPoll i side') w := by
  obtain ⟨runs, _⟩ := agrees.polled i side here
  obtain ⟨granted, _⟩ := after_env gone
  rw [← setFeed_same (w := w) (i := i)]
  apply agrees.setPoll ⟨rfl, rfl⟩
  refine ⟨runs.after gone, ?_⟩
  intro there
  rw [← Option.some.inj granted] at there
  cases there

theorem Agrees.advance {d : Duration} (agrees : Agrees interval timeout b w) :
    Agrees interval timeout (b.advance d) { w with clock := w.clock + d } where
  shared := congrArg (fun v : World => { v with clock := v.clock + d }) agrees.shared
  timers := agrees.timers
  polled i side' polled := by
    obtain ⟨side, here, moved⟩ := Option.bind_eq_some_iff.mp polled
    obtain ⟨runs, feed⟩ := agrees.polled i side here
    obtain ⟨granted, _⟩ := after_env moved
    refine ⟨runs.after moved, ?_⟩
    intro present
    obtain ⟨clock, poller, inHand, queue⟩ := feed (present_of_env granted present)
    rw [notes_after moved, ← Option.some.inj granted]
    exact ⟨congrArg (· + d) clock, poller, inHand, queue⟩

theorem Agrees.fire (agrees : Agrees interval timeout b w)
    (granted : b.world.background (.feed i .fire) = some v) :
    ∃ w', w.background (.feed i .fire) = some w' ∧
      Agrees interval timeout { b with world := v } w' := by
  obtain ⟨f, taken, rfl⟩ := Option.map_eq_some_iff.mp granted
  rw [Feed.step] at taken
  split at taken
  · cases taken
  · next deadline armed =>
      obtain ⟨due, same⟩ := Option.ite_none_right_eq_some.mp taken
      cases same
      have armed' : (w.feeds i).deadline = some deadline := (agrees.timers i).1.trans armed
      have taken' : (w.feeds i).step w.clock .fire =
          some (timed (w.feeds i) (some deadline) true) := by
        simp only [Feed.step, armed', agrees.clock, if_pos due, timed]
      refine ⟨w.setFeed i (timed (w.feeds i) (some deadline) true), ?_, ?_⟩
      · rw [World.background, taken']
        rfl
      · have fired : { b.world.feeds i with fired := true } =
            timed (b.world.feeds i) (some deadline) true := by
          rw [timed, ← armed]
        rw [fired]
        exact agrees.setTimer

theorem Agrees.migrate {ev : MigrationEvent} (agrees : Agrees interval timeout b w) :
    Agrees interval timeout (b.migrate cfg dryRun ev) { w with spawned := w.spawned + 1 } where
  shared := congrArg (fun v : World => { v with spawned := v.spawned + 1 }) agrees.shared
  timers := agrees.timers
  polled i side here := by
    obtain ⟨runs, feed⟩ := agrees.polled i side here
    exact ⟨runs, fun present => (feed present).alike rfl rfl⟩

end Others

/-! ### Runs -/

/-- A run of graduation mode follows a run of the bot: with the same operations and the same tasks,
and the migrations that `main` received. -/
structure Follows (cfg : Market.Config) (dryRun : Bool) (interval : Duration) (timeout : Nat)
    (start : Instant) (ops : List (Nat × Sigma Reply)) (b : Bot) (tr : GradTrace) (w : World) :
    Prop where
  run : GradRun cfg dryRun start always tr ⟨w, b.tasks⟩
  performed : exchanges tr = ops
  migrated : migrations tr = b.intake.received
  agrees : Agrees interval timeout b w

section Runs

variable {cfg : Market.Config} {dryRun : Bool} {fromStr : String → Option Value}
  {interval : Duration} {timeout : Nat} {start : Instant} {ops : List (Nat × Sigma Reply)}
  {b : Bot}

/-- Every run of the bot is one of graduation mode as its sessions see it. -/
theorem follows_of_run (run : BotRun cfg dryRun fromStr interval timeout start ops b) :
    ∃ tr w, Follows cfg dryRun interval timeout start ops b tr w := by
  induction run with
  | start =>
      refine ⟨[], _, .start, rfl, rfl, rfl, fun i => ⟨rfl, rfl⟩, ?_⟩
      intro i side polled
      cases polled
  | @perform ops b b' i l o resume r before pending granted ih =>
      obtain ⟨tr, w, abstract, same, migrated, agrees⟩ := ih
      have unpolled (mint : String) (spawns : o = .spawnPricePoll mint) :
          (w.feeds i).Unpolled := by
        subst spawns
        exact (Tasks.unpolled_at_spawn abstract pending).1
      obtain ⟨w₁, w₂, answered, moves, agrees'⟩ := agrees.perform unpolled granted
      obtain ⟨tasks, intake⟩ := perform_rest granted
      have stepped := abstract.step trivial (.perform pending answered)
      obtain ⟨tr', reached, same', longer⟩ := moves.run stepped
      rw [List.append_nil] at reached
      refine ⟨tr', w₂, ?_, ?_, ?_, agrees'.setTask⟩
      · rw [Bot.setTask, tasks]
        exact reached
      · rw [same', exchanges_perform, same]
      · rw [migrations_still stepped reached longer, migrations_aside (by simp), migrated]
        change _ = b'.intake.received
        rw [intake]
  | unroll before pending ih =>
      obtain ⟨tr, w, abstract, same, migrated, agrees⟩ := ih
      refine ⟨_, w, abstract.step trivial (.unroll pending), ?_, ?_, agrees.setTask⟩
      · rw [exchanges_unroll, same]
      · rw [migrations_aside (by simp), migrated]
        rfl
  | @advance ops b d before ih =>
      obtain ⟨tr, w, abstract, same, migrated, agrees⟩ := ih
      have moved := abstract.step (e := .env (.advance d)) trivial (.env rfl)
      rw [List.append_nil] at moved
      refine ⟨_, _, moved, ?_, ?_, agrees.advance⟩
      · rw [exchanges_env, same]
      · rw [migrations_aside (by simp), migrated]
        rfl
  | @fire ops b i v before granted ih =>
      obtain ⟨tr, w, abstract, same, migrated, agrees⟩ := ih
      obtain ⟨w', granted', agrees'⟩ := agrees.fire granted
      have fired : (graduation cfg dryRun).env w (.feed i .fire) = some (w', []) := by
        change (w.background (.feed i .fire)).map _ = _
        rw [granted']
        rfl
      have moved := abstract.step trivial (.env fired)
      rw [List.append_nil] at moved
      refine ⟨_, w', moved, ?_, ?_, agrees'⟩
      · rw [exchanges_env, same]
      · rw [migrations_aside (by simp), migrated]
  | poll before here moved own faithful ih =>
      obtain ⟨tr, w, abstract, same, migrated, agrees⟩ := ih
      obtain ⟨w', moves, agrees'⟩ := agrees.poll here moved own faithful
      obtain ⟨tr', reached, same', longer⟩ := moves.run abstract
      rw [List.append_nil] at reached
      refine ⟨tr', w', reached, same'.trans same, ?_, agrees'⟩
      exact (migrations_still abstract reached longer).trans migrated
  | drop before here ended gone ih =>
      obtain ⟨tr, w, abstract, same, migrated, agrees⟩ := ih
      exact ⟨tr, w, abstract, same, migrated, agrees.drop here gone⟩
  | listen before moved present ih =>
      obtain ⟨tr, w, abstract, same, migrated, agrees⟩ := ih
      exact ⟨tr, w, abstract, same, migrated, agrees.shared, agrees.timers, agrees.polled⟩
  | @migrate ops b ev before next ih =>
      obtain ⟨tr, w, abstract, same, migrated, agrees⟩ := ih
      have spawned : (graduation cfg dryRun).env w (.migrate ev) =
          some ({ w with spawned := w.spawned + 1 },
            [Tasks.sessionTask cfg dryRun (.start cfg ev b.world.clock)]) := by
        rw [← agrees.clock]
        rfl
      refine ⟨_, _, abstract.step trivial (.env spawned), ?_, ?_, agrees.migrate⟩
      · rw [exchanges_env, same]
      · rw [migrations_migrate, migrated]
        rfl

/-- What is verified of graduation mode over an abstract price feed holds of the bot with its
listener and its poll tasks: the sessions perform the same operations in the same order there and
stand where they stand here, at the same clock, with the same slots taken and the same spending on
record. -/
theorem bot_refines_graduation (run : BotRun cfg dryRun fromStr interval timeout start ops b) :
    ∃ tr w, GradRun cfg dryRun start always tr ⟨w, b.tasks⟩ ∧ exchanges tr = ops ∧
      w.clock = b.world.clock ∧ w.openPositions = b.world.openPositions ∧
      w.tracker = b.world.tracker := by
  obtain ⟨tr, w, abstract, same, _, agrees⟩ := follows_of_run run
  have slots := congrArg World.openPositions agrees.shared
  have spending := congrArg World.tracker agrees.shared
  exact ⟨tr, w, abstract, same, agrees.clock, slots, spending⟩

theorem BotRun.receive {i : Nat} {l : SessionLocals}
    {resume : SessionEvent → TaskProc SessionLocals} {side side' : PollSide} {s : Sample}
    (before : BotRun cfg dryRun fromStr interval timeout start ops b)
    (pending : b.tasks[i]? = some (.op l .select resume))
    (early : (b.world.feeds i).fired = false) (polled : b.polls i = some side)
    (head : (side.waiting interval timeout).head? = some s)
    (moved : side.after .receive = some side') :
    BotRun cfg dryRun fromStr interval timeout start (ops ++ [(i, ⟨.select, .tick (some s)⟩)])
      ((b.setPoll i side').setTask i (resume (.tick (some s)))) := by
  apply BotRun.perform before pending
  change b.answerSelect interval timeout i (.tick (some s)) = _
  rw [Bot.answerSelect, if_neg (by simp [early])]
  unfold Bot.recvTick
  rw [polled]
  change (if _ then _ else _) = _
  rw [if_pos head, moved]
  rfl

def mintFrame (text : String) : Option Value :=
  some (.object [("mint", .string text)])

set_option maxRecDepth 4000 in
/-- A graduation is heard, and its session looks up the name; the poll task finds the pool, reads it
once, and sends what it read. -/
theorem one_price : ∃ ops b side, BotRun Tasks.eager false mintFrame 1 1 0 ops b ∧
    b.polls 0 = some side ∧ (receivedTicks 0 ops).length = 1 ∧
    lookups 0 ops = [(⟨0⟩, .ok ("Token", "TOKEN"))] ∧
    ∃ (l : SessionLocals) (o : Op) (resume : Reply o → TaskProc SessionLocals),
      b.tasks[0]? = some (.op l o resume) := by
  have run : BotRun Tasks.eager false mintFrame 1 1 0 [] _ := .start
  have run := run.listen (e := .unroll 0) (.unroll rfl) (by simp)
  have run := run.listen (e := .perform 0 _ .connect (.ok ())) (.perform rfl rfl) (by simp)
  have run := run.listen (e := .perform 0 _ (.write _) (.ok ())) (.perform rfl rfl) (by simp)
  have run := run.listen (e := .unroll 0) (.unroll rfl) (by simp)
  have run := run.listen (e := .perform 0 _ .read (some (.ok (.text Tasks.someMint))))
    (.perform rfl rfl) (by simp)
  have run := run.listen (e := .perform 0 _ (.send _) true) (.perform rfl rfl)
    (by rintro j l ev r ⟨⟩; rfl)
  have run := run.migrate rfl
  have run := run.perform (i := 0) (o := .fetchTokenMetadata ⟨0⟩) (r := .ok ("Token", "TOKEN"))
    rfl rfl
  have run := run.perform (i := 0) (o := .now .sessionStart) (r := (0 : Nat)) rfl rfl
  have run := run.perform (i := 0) (o := .spawnPricePoll Tasks.someMint) (r := ()) rfl rfl
  have run := run.perform (i := 0) (o := .sleepUntil none) (r := ()) rfl rfl
  have run := run.poll (i := 0) (e := .perform 0 () (.findPool ⟨0⟩) listedRpc) rfl
    (.perform rfl rfl) (by simp) (listedRpc_faithful ⟨0⟩)
  have run := run.poll (i := 0) (e := .unroll 0) rfl (.unroll rfl) (by simp) trivial
  have run := run.poll (i := 0) (e := .perform 0 () (.readPool _) fullVaults) rfl
    (.perform rfl rfl) (by simp) (fullVaults_faithful ⟨⟨0⟩, ⟨0⟩, ⟨0⟩⟩)
  have run := run.poll (i := 0) (e := .perform 0 () (.send _) true) rfl (.perform rfl rfl)
    (by simp) trivial
  have run := run.unroll (i := 0) rfl
  have run := run.receive (i := 0) rfl rfl rfl rfl rfl
  exact ⟨_, _, _, run, rfl, rfl, rfl, _, _, _, rfl⟩

theorem bot_refines_graduation_one_price : ∃ ops, ∃ b : Bot, (receivedTicks 0 ops).length = 1 ∧
    ∃ tr w, GradRun Tasks.eager false 0 always tr ⟨w, b.tasks⟩ ∧ exchanges tr = ops ∧
      w.clock = b.world.clock ∧ w.openPositions = b.world.openPositions ∧
      w.tracker = b.world.tracker := by
  obtain ⟨ops, b, _, run, _, one, _⟩ := one_price
  exact ⟨ops, b, one, bot_refines_graduation run⟩

end Runs

end HadesPsTrader.Feeds
