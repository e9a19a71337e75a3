/- Module: HadesPsTrader/Feeds/PollRefines
   source: src/price_feed.rs
   digest: The price feed of the shared state is an abstraction of the poll task. -/

import HadesPsTrader.Feeds.PollRuns
import HadesPsTrader.Runs.WorldSteps

set_option autoImplicit false
set_option relaxedAutoImplicit false

namespace HadesPsTrader.Feeds

open HadesPsTrader.Interaction HadesPsTrader.Market HadesPsTrader.Chain
open Tasks (PriceUpdate Sample Poller Feed FeedStep World)

/-- What can happen to a feed of the shared state: time, a step of its poller, and a `recv` of its
session. -/
inductive FeedMove
  | advance (d : Duration)
  | poller (x : FeedStep)
  | receive
  deriving DecidableEq

section Abstract

variable (i : Nat) (w : World)

def feedMove : FeedMove → Option World
  | .advance d => w.background (.advance d)
  | .poller x => w.background (.feed i x)
  | .receive => match (w.feeds i).queue with
    | [] => none
    | next :: _ => w.recvTick i (some next)

def follow (moves : List FeedMove) : Option World := moves.foldlM (feedMove i) w

end Abstract

structure Abstracts (i : Nat) (g : PollNotes) (p : PollWorld) (w : World) : Prop where
  clock : w.clock = p.clock
  poller : (w.feeds i).poller = g.poller
  inHand : (w.feeds i).inHand = g.inHand
  queue : (w.feeds i).queue = g.sent.drop p.received

section Steps

variable {i : Nat} {g : PollNotes} {p p' : PollWorld} {w : World} {timeout : Nat}

theorem follow_append {w₀ : World} {moves more : List FeedMove}
    (reached : follow i w₀ moves = some w) :
    follow i w₀ (moves ++ more) = follow i w more := by
  rw [follow, List.foldlM_append, ← follow, reached]
  rfl

theorem follow_poller {f : Feed} {x : FeedStep} (taken : (w.feeds i).step w.clock x = some f) :
    follow i w [.poller x] = some (w.setFeed i f) := by
  simp [follow, feedMove, World.background, taken]

theorem follow_receive {s : Sample} {rest : List Sample} (queued : (w.feeds i).queue = s :: rest) :
    follow i w [.receive] = some (w.setFeed i { w.feeds i with queue := rest }) := by
  simp only [follow, List.foldlM_cons, List.foldlM_nil, feedMove, queued, World.recvTick,
    if_pos, Option.bind_eq_bind, Option.bind_some, Option.pure_def]

/-- At most one step of the poller of a feed. -/
inductive Polled (clock : Instant) (f : Feed) : Feed → Prop
  | idle : Polled clock f f
  | stepped {f' : Feed} {x : FeedStep} (taken : f.step clock x = some f') (poller : x ≠ .fire) :
      Polled clock f f'

theorem setFeed_same : w.setFeed i (w.feeds i) = w := by
  rw [World.setFeed, Function.update_eq_self]

theorem Polled.follows {f : Feed} (polled : Polled w.clock (w.feeds i) f) :
    ∃ moves, follow i w moves = some (w.setFeed i f) := by
  cases polled with
  | idle => exact ⟨[], congrArg some setFeed_same.symm⟩
  | stepped taken _ => exact ⟨_, follow_poller taken⟩

theorem Abstracts.setFeed {f : Feed} (clock : w.clock = p.clock) (poller : f.poller = g.poller)
    (inHand : f.inHand = g.inHand) (queue : f.queue = g.sent.drop p.received) :
    Abstracts i g p (w.setFeed i f) := by
  refine ⟨clock, ?_, ?_, ?_⟩
  all_goals
    rw [World.setFeed_self]
    assumption

theorem Abstracts.next {o : PollOp} {r : PollReply o} {mint : Pubkey} {interval : Duration}
    (same : Abstracts i g p w) (delivered : Delivered g p)
    (permitted : PollPermits interval mint g o) (granted : p.perform o r = some p')
    (here : p'.dropped = false) :
    ∃ f, Polled w.clock (w.feeds i) f ∧ Abstracts i (g.next timeout p o r) p' (w.setFeed i f) := by
  obtain ⟨clock, poller, inHand, queue⟩ := same
  cases o with
  | findPool mint =>
      cases granted
      obtain ⟨_, discovering, _⟩ := permitted
      rw [PollNotes.next, PollNotes.entry]
      generalize findPool r mint = found
      cases found with
      | error fault => cases fault <;> exact ⟨_, .idle, .setFeed clock poller inHand queue⟩
      | ok pool =>
          have taken : (w.feeds i).step w.clock .discovered =
              some { w.feeds i with poller := .polling } := by
            rw [Feed.step, poller, discovering]
            rfl
          exact ⟨_, .stepped taken (by simp), .setFeed clock rfl inHand queue⟩
  | readPool pool =>
      cases granted
      obtain ⟨polls, _, empty, _⟩ := permitted
      rw [PollNotes.next, PollNotes.entry]
      generalize fetchPoolState r pool timeout = answered
      cases answered with
      | error fault => cases fault <;> exact ⟨_, .idle, .setFeed clock poller inHand queue⟩
      | ok state =>
          have taken : (w.feeds i).step w.clock (.sample ⟨state.priceSol, state.poolSol⟩) = some
              { w.feeds i with inHand := some ⟨⟨state.priceSol, state.poolSol⟩, w.clock⟩ } := by
            rw [Feed.step, if_pos ⟨poller.trans polls, inHand.trans empty⟩]
          refine ⟨_, .stepped taken (by simp), .setFeed clock poller ?_ queue⟩
          exact congrArg (fun t => some (⟨⟨state.priceSol, state.poolSol⟩, t⟩ : Sample)) clock
  | send u =>
      obtain ⟨_, sample, held, rfl⟩ := permitted
      rw [PollWorld.perform] at granted
      split_ifs at granted with gone received
      · cases granted
        cases received
        have taken : (w.feeds i).step w.clock .send =
            some { w.feeds i with inHand := none, queue := (w.feeds i).queue ++ [sample] } := by
          rw [Feed.step, inHand, held]
        refine ⟨_, .stepped taken (by simp), .setFeed clock poller rfl ?_⟩
        change (w.feeds i).queue ++ [sample] = (g.sent ++ g.inHand.toList).drop p.received
        rw [queue, held, List.drop_append_of_le_length delivered.received]
        rfl
      · cases granted
        exact absurd (here ▸ Bool.eq_false_iff.mpr received) gone
  | arm d =>
      cases granted
      exact ⟨_, .idle, .setFeed clock poller inHand queue⟩
  | wake =>
      rw [PollWorld.perform] at granted
      split at granted
      · cases granted
      split_ifs at granted
      cases granted
      by_cases exhausted : g.poller = .discovering ∧ g.failures.length = discoveryAttempts
      · have taken : (w.feeds i).step w.clock .gaveUp =
            some { w.feeds i with poller := .ended } := by
          rw [Feed.step, poller, exhausted.1]
          rfl
        refine ⟨_, .stepped taken (by simp), .setFeed clock ?_ inHand queue⟩
        rw [PollNotes.next, PollNotes.entry, if_pos exhausted]
      · refine ⟨_, .idle, .setFeed clock ?_ inHand queue⟩
        rw [PollNotes.next, PollNotes.entry, if_neg exhausted, poller]
  | isClosed =>
      rw [PollWorld.perform] at granted
      split_ifs at granted
      cases granted
      exact ⟨_, .idle, .setFeed clock poller inHand queue⟩

theorem Abstracts.receive (same : Abstracts i g p w) (delivered : Delivered g p)
    (granted : p.env .receive = some p') :
    ∃ s rest, (w.feeds i).queue = s :: rest ∧
      Abstracts i g p' (w.setFeed i { w.feeds i with queue := rest }) := by
  obtain ⟨clock, poller, inHand, queue⟩ := same
  rw [PollWorld.env] at granted
  split at granted
  · next head rest _ queued =>
      cases granted
      have more : p.received < g.sent.length := by
        by_contra all
        have channel := delivered.channel
        rw [queued, List.drop_of_length_le (not_lt.mp all)] at channel
        cases channel
      rw [List.drop_eq_getElem_cons more] at queue
      exact ⟨_, _, queue, .setFeed clock poller inHand rfl⟩
  · cases granted

theorem Abstracts.env {e : PollEnv} (same : Abstracts i g p w) (delivered : Delivered g p)
    (granted : p.env e = some p') (here : p'.dropped = false) :
    ∃ moves w', follow i w moves = some w' ∧ Abstracts i g p' w' := by
  cases e with
  | advance d =>
      cases granted
      obtain ⟨clock, poller, inHand, queue⟩ := same
      exact ⟨[.advance d], _, rfl, congrArg (· + d) clock, poller, inHand, queue⟩
  | receive =>
      obtain ⟨s, rest, queued, same'⟩ := same.receive delivered granted
      exact ⟨_, _, follow_receive queued, same'⟩
  | drop =>
      cases granted
      cases here

theorem receiver_of_perform {o : PollOp} {r : PollReply o} (granted : p.perform o r = some p') :
    p'.dropped = p.dropped ∧ p'.received = p.received := by
  cases o with
  | findPool mint =>
      cases granted
      exact ⟨rfl, rfl⟩
  | readPool pool =>
      cases granted
      exact ⟨rfl, rfl⟩
  | send u =>
      rw [PollWorld.perform] at granted
      split_ifs at granted <;> cases granted <;> exact ⟨rfl, rfl⟩
  | arm d =>
      cases granted
      exact ⟨rfl, rfl⟩
  | wake =>
      rw [PollWorld.perform] at granted
      split at granted
      · cases granted
      · split_ifs at granted
        cases granted
        exact ⟨rfl, rfl⟩
  | isClosed =>
      rw [PollWorld.perform] at granted
      split_ifs at granted
      cases granted
      exact ⟨rfl, rfl⟩

theorem present_of_env {e : PollEnv} (granted : p.env e = some p') (here : p'.dropped = false) :
    p.dropped = false := by
  cases e with
  | advance d =>
      cases granted
      exact here
  | receive =>
      rw [PollWorld.env] at granted
      split at granted
      · cases granted
        exact here
      · cases granted
  | drop =>
      cases granted
      cases here

end Steps

section Runs

variable {interval : Duration} {timeout : Nat} {mint : String} {start : Instant}
  {tr : Trace PollWorld Unit PollOp PollReply PollEnv} {c : Config PollWorld Unit PollOp PollReply}

/-- Runs in which the node answers lookups of accounts position by position. -/
def faithfully (_ : Trace PollWorld Unit PollOp PollReply PollEnv)
    (_ : Config PollWorld Unit PollOp PollReply) : Label Unit PollOp PollReply PollEnv → Prop
  | .perform _ _ o r => Faithful o r
  | .unroll _ => True
  | .env _ => True

theorem fetchPoolState_calm (pool : PoolInfo) (timeout : Nat)
    {ask : List Pubkey → Option (Except String (List (Option StoredAccount)))}
    (faithful : Faithful (.readPool pool) ask) :
    fetchPoolState ask pool timeout ≠ .error .panicked := by
  obtain ⟨stored, positional⟩ := faithful
  have positional := positional [pool.baseVault, pool.quoteVault]
  cases answer : ask [pool.baseVault, pool.quoteVault] with
  | none =>
      rw [fetchPoolState, answer]
      exact nofun
  | some result =>
      cases result with
      | error e =>
          rw [fetchPoolState, answer]
          exact nofun
      | ok accounts =>
          obtain rfl := positional accounts answer
          cases base : stored pool.baseVault with
          | none =>
              rw [fetchPoolState, answer, List.map_cons, base]
              exact nofun
          | some base' =>
              cases quote : stored pool.quoteVault with
              | none =>
                  rw [fetchPoolState, answer, List.map_cons, List.map_cons, base, quote]
                  exact nofun
              | some quote' =>
                  rw [List.map_cons, List.map_cons, List.map_nil, base, quote] at answer
                  rw [fetchPoolState_eq answer]
                  split_ifs <;> exact nofun

theorem calm_of_run (run : Run polling faithfully (pollStart interval timeout mint start) tr c) :
    (pollNotes interval timeout mint tr).panicked = false := by
  apply run.alone (pollRules interval timeout mint) (.start mint) fun g _ => g.panicked = false
  · exact fun s e s' ts granted => (polling_spawns s e s' ts granted).2
  · rfl
  · rw [PollNotes.start]
    split_ifs <;> rfl
  · intro tr c l o r s' resume _ _ faithful calm _
    change (PollNotes.next timeout _ c.shared o r).panicked = false
    rw [PollNotes.next]
    cases o with
    | findPool mintPk =>
        obtain ⟨⟨tokenAt, tokens⟩, ownerAt, owners⟩ := faithful
        have safe := (findPool_pairs tokens owners mintPk).1
        rw [PollNotes.entry]
        generalize findPool r mintPk = found at safe
        cases found with
        | ok pool => exact calm
        | error fault =>
          cases fault with
          | panicked => exact absurd rfl safe
          | failed e => exact calm
    | readPool pool =>
        have safe := fetchPoolState_calm pool timeout faithful
        rw [PollNotes.entry]
        generalize fetchPoolState r pool timeout = answered at safe
        cases answered with
        | ok state => exact calm
        | error fault =>
          cases fault with
          | panicked => exact absurd rfl safe
          | failed e => exact calm
    | send u => cases r <;> exact calm
    | arm d => exact calm
    | wake => exact calm
    | isClosed => exact calm
  · exact fun calm _ => calm

structure Spawned (f : Feed) : Prop where
  poller : f.poller = .discovering
  inHand : f.inHand = none
  queue : f.queue = []

theorem Abstracts.spawned {w : World} {i : Nat} (clock : w.clock = start)
    (spawned : Spawned (w.feeds i)) : ∃ f, Polled w.clock (w.feeds i) f ∧
      Abstracts i (.start mint) { clock := start } (w.setFeed i f) := by
  obtain ⟨poller, inHand, queue⟩ := spawned
  rw [PollNotes.start]
  cases Pubkey.fromStr mint with
  | some mintPk => exact ⟨_, .idle, .setFeed clock poller inHand queue⟩
  | none =>
      have taken : (w.feeds i).step w.clock .gaveUp = some { w.feeds i with poller := .ended } := by
        rw [Feed.step, poller]
        rfl
      exact ⟨_, .stepped taken (by simp), .setFeed clock rfl inHand queue⟩

theorem lone_poll (run : Run polling faithfully (pollStart interval timeout mint start) tr c)
    {j : Nat} {t : PollProc} (task : c.tasks[j]? = some t) : j = 0 := by
  have lone := run.one_task (fun s e s' ts granted => (polling_spawns s e s' ts granted).2) rfl
  have first : j < c.tasks.length := (List.getElem?_eq_some_iff.mp task).1
  omega

section Step

variable {c' : Config PollWorld Unit PollOp PollReply} {e : Label Unit PollOp PollReply PollEnv}

theorem dropped_of_step (moved : Step polling c e c') (own : ∀ x, e ≠ .env x) :
    c'.shared.dropped = c.shared.dropped := by
  cases moved with
  | perform pending granted => exact (receiver_of_perform granted).1
  | unroll pending => rfl
  | env granted => exact absurd rfl (own _)

theorem Abstracts.step {w : World} {i : Nat}
    (same : Abstracts i (pollNotes interval timeout mint tr) c.shared w)
    (run : Run polling faithfully (pollStart interval timeout mint start) tr c)
    (moved : Step polling c e c') (own : ∀ x, e ≠ .env x) (here : c'.shared.dropped = false) :
    ∃ f, Polled w.clock (w.feeds i) f ∧
      Abstracts i (pollNotes interval timeout mint (tr ++ [(c.shared, e)])) c'.shared
        (w.setFeed i f) := by
  cases moved with
  | @perform j l o resume r s' pending granted =>
      obtain rfl := lone_poll run pending
      rw [pollNotes, ghost_perform_self]
      exact same.next (delivered_of_run run) (polls_of_run run pending).2.1 granted here
  | unroll pending =>
      rw [pollNotes, ghost_unroll]
      refine ⟨_, .idle, ?_⟩
      rw [setFeed_same]
      exact same
  | env granted => exact absurd rfl (own _)

end Step

theorem abstracts_of_run {w₀ : World} {i : Nat} (clock : w₀.clock = start)
    (spawned : Spawned (w₀.feeds i))
    (run : Run polling faithfully (pollStart interval timeout mint start) tr c) :
    c.shared.dropped = false → ∃ moves w, follow i w₀ moves = some w ∧
      Abstracts i (pollNotes interval timeout mint tr) c.shared w := by
  apply run.invariant (fun tr c => c.shared.dropped = false → ∃ moves w,
    follow i w₀ moves = some w ∧ Abstracts i (pollNotes interval timeout mint tr) c.shared w)
  · intro _
    obtain ⟨f, polled, same⟩ := Abstracts.spawned clock spawned
    obtain ⟨moves, reached⟩ := polled.follows
    exact ⟨moves, _, reached, same⟩
  intro tr c e c' before ih _ moved here
  cases e with
  | env x =>
      cases moved with
      | env granted =>
          have granted := (polling_spawns _ _ _ _ granted).1
          have kept := present_of_env granted here
          obtain ⟨moves, w, reached, same⟩ := ih kept
          obtain ⟨more, w', moved, same'⟩ := same.env (delivered_of_run before) granted here
          refine ⟨moves ++ more, w', (follow_append reached).trans moved, ?_⟩
          rw [pollNotes, ghost_env]
          exact same'
  | _ =>
      have kept := dropped_of_step moved nofun
      obtain ⟨moves, w, reached, same⟩ := ih (kept.symm.trans here)
      obtain ⟨f, polled, same'⟩ := same.step before moved nofun here
      obtain ⟨more, moved⟩ := polled.follows
      exact ⟨moves ++ more, _, (follow_append reached).trans moved, same'⟩

theorem ended_iff_finished
    (run : Run polling faithfully (pollStart interval timeout mint start) tr c)
    (here : c.shared.dropped = false) {t : PollProc} (task : c.tasks[0]? = some t) :
    (pollNotes interval timeout mint tr).poller = .ended ↔ t.finished = true := by
  have kept := polls_of_run run task
  cases finished : t.finished with
  | false =>
      refine iff_of_false ?_ Bool.false_ne_true
      exact (Proc.coherent_of_running kept finished).alive
  | true =>
      refine iff_of_true ?_ rfl
      obtain ⟨_, ended⟩ := Proc.returned_of_finished kept finished
      rcases ended.ended with given_up | gone | panicked
      · exact given_up
      · rw [(delivered_of_run run).gone gone] at here
        cases here
      · rw [calm_of_run run] at panicked
        cases panicked

theorem listedRpc_faithful (mint : Pubkey) : Faithful (.findPool mint) listedRpc :=
  ⟨⟨listedTokens, positional_of_map fun _ => rfl⟩, listedOwners, positional_of_map fun _ => rfl⟩

theorem fullVaults_faithful (pool : PoolInfo) : Faithful (.readPool pool) fullVaults := by
  refine ⟨fun _ => some (tokenAccount 1), ?_⟩
  intro keys accounts answer
  cases answer
  rfl

theorem Run.faithful_step {c₀ c' : Config PollWorld Unit PollOp PollReply}
    {e : Label Unit PollOp PollReply PollEnv} (run : Run polling faithfully c₀ tr c)
    (moved : Step polling c e c') (faithful : faithfully tr c e) :
    Run polling faithfully c₀ (tr ++ [(c.shared, e)]) c' :=
  run.step faithful moved

end Runs

end HadesPsTrader.Feeds
