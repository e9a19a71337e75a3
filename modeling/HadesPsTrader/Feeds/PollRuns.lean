/- Module: HadesPsTrader/Feeds/PollRuns
   source: src/price_feed.rs
   digest: What a poll task sends, and when it reads, in any run. -/

import HadesPsTrader.Chain.PoolDiscovery
import HadesPsTrader.Feeds.PricePoll
import HadesPsTrader.Interaction.History

set_option autoImplicit false
set_option relaxedAutoImplicit false

namespace HadesPsTrader.Feeds

open HadesPsTrader.Interaction HadesPsTrader.Market HadesPsTrader.Chain
open Tasks (PriceUpdate Sample Poller)

/-- The history of a poll task, read off its operations and their answers. -/
structure PollNotes where
  /-- The clock at the last operation, and the running timer. -/
  seen : Instant := 0
  timer : Option Instant := none
  poller : Poller := .discovering
  /-- When an attempt of the discovery failed. -/
  failures : List Instant := []
  /-- The pool that was found. -/
  pool : Option PoolInfo := none
  /-- When the vaults were read, successfully or not. -/
  reads : List Instant := []
  /-- The states that were read, with the times: those that reached the channel, the one in hand,
  and the one that found the receiver gone. -/
  states : List Sample := []
  sent : List Sample := []
  inHand : Option Sample := none
  lost : Option Sample := none
  /-- A send or a look at the channel found the receiver gone. -/
  gone : Bool := false
  /-- A discovery or a read panicked. -/
  panicked : Bool := false
  deriving DecidableEq

namespace PollNotes

variable (timeout : Nat) (g : PollNotes) (w : PollWorld)

def discovery : Except (Fault PoolError) PoolInfo → PollNotes
  | .ok pool => { g with poller := .polling, pool := some pool }
  | .error .panicked => { g with panicked := true }
  | .error (.failed _) => { g with failures := g.failures ++ [w.clock] }

def reading : Except (Fault PoolReadError) PoolState → PollNotes
  | .ok state => { g with
      reads := g.reads ++ [w.clock]
      states := g.states ++ [⟨⟨state.priceSol, state.poolSol⟩, w.clock⟩]
      inHand := some ⟨⟨state.priceSol, state.poolSol⟩, w.clock⟩ }
  | .error .panicked => { g with panicked := true }
  | .error (.failed _) => { g with reads := g.reads ++ [w.clock] }

/-- The notes on one operation. The poller gives up with the sleep after its last attempt. -/
def entry : (o : PollOp) → PollReply o → PollNotes
  | .findPool mint, rpc => g.discovery w (findPool rpc mint)
  | .readPool pool, ask => g.reading w (fetchPoolState ask pool timeout)
  | .send _, true => { g with sent := g.sent ++ g.inHand.toList, inHand := none }
  | .send _, false => { g with inHand := none, lost := g.inHand, gone := true }
  | .arm d, _ => { g with timer := some (w.clock + d) }
  | .wake, _ => { g with
      timer := none
      poller := if g.poller = .discovering ∧ g.failures.length = discoveryAttempts then .ended
        else g.poller }
  | .isClosed, closed => { g with gone := g.gone || closed }

def next (o : PollOp) (r : PollReply o) : PollNotes := { g.entry timeout w o r with seen := w.clock }

end PollNotes

/-- Instants at least `d` apart, in order, all of them passed at `now`. -/
structure Spaced (d : Duration) (ts : List Instant) (now : Instant) : Prop where
  apart : ts.IsChain fun a b => a + d ≤ b
  past : ∀ t ∈ ts.getLast?, t ≤ now

/-- The last of these instants is at least `d` ago at `now`. -/
def Due (d : Duration) (ts : List Instant) (now : Instant) : Prop := ∀ t ∈ ts.getLast?, t + d ≤ now

theorem Spaced.later {d : Duration} {ts : List Instant} {now now' : Instant}
    (spaced : Spaced d ts now) (later : now ≤ now') : Spaced d ts now' :=
  ⟨spaced.apart, fun t last => (spaced.past t last).trans later⟩

theorem Spaced.next {d : Duration} {ts : List Instant} {now now' : Instant}
    (spaced : Spaced d ts now) (due : Due d ts now) (later : now ≤ now') :
    Spaced d (ts ++ [now']) now' := by
  refine ⟨?_, ?_⟩
  · rw [List.isChain_append]
    refine ⟨spaced.apart, .singleton _, ?_⟩
    intro t last t' head
    cases head
    exact (due t last).trans later
  · intro t last
    rw [List.getLast?_concat] at last
    cases last
    exact le_rfl

/-- What holds of the attempts, the reads and the sends of a poll task at any time. -/
structure PollPaced (interval : Duration) (g : PollNotes) : Prop where
  tried : Spaced discoveryInterval g.failures g.seen
  few : g.failures.length ≤ discoveryAttempts
  read : Spaced interval g.reads g.seen
  stamped : (g.states.map Sample.sampledAt).Sublist g.reads
  passed : g.states = g.sent ++ g.inHand.toList ++ g.lost.toList

structure PollCoherent (interval : Duration) (g : PollNotes) : Prop where
  paced : PollPaced interval g
  alive : g.poller ≠ .ended
  kept : g.lost = none ∧ g.gone = false ∧ g.panicked = false

def PollPermits (interval : Duration) (mint : Pubkey) (g : PollNotes) : PollOp → Prop
  | .findPool mint' => mint' = mint ∧ g.poller = .discovering ∧ g.inHand = none ∧
      g.failures.length < discoveryAttempts ∧ Due discoveryInterval g.failures g.seen
  | .readPool pool => g.poller = .polling ∧ g.pool = some pool ∧ g.inHand = none ∧
      Due interval g.reads g.seen
  | .send u => g.poller = .polling ∧ ∃ s, g.inHand = some s ∧ s.update = u
  | .arm _ => g.inHand = none
  | .wake => g.inHand = none
  | .isClosed => g.inHand = none ∧ g.poller = .polling

/-- The clock a poll task sees never runs back, and its timer wakes it in time. -/
def PollTimely (g : PollNotes) (w : PollWorld) (o : PollOp) : Prop :=
  g.seen ≤ w.clock ∧ (o = .wake → ∀ t ∈ g.timer, t ≤ w.clock)

def pollProtocol (interval : Duration) (timeout : Nat) (mint : Pubkey) :
    Protocol PollNotes PollWorld Unit PollOp PollReply where
  coherent g _ := PollCoherent interval g
  guard g _ o := PollPermits interval mint g o
  valid g w _ o _ := PollTimely g w o
  next g w _ o r := g.next timeout w o r

structure PollEnded (interval : Duration) (g : PollNotes) : Prop where
  paced : PollPaced interval g
  ended : g.poller = .ended ∨ g.gone = true ∨ g.panicked = true

theorem PollPaced.later {interval : Duration} {g : PollNotes} (paced : PollPaced interval g)
    {g' : PollNotes} (later : g.seen ≤ g'.seen) (failures : g'.failures = g.failures)
    (reads : g'.reads = g.reads) (states : g'.states = g.states)
    (passed : g'.states = g'.sent ++ g'.inHand.toList ++ g'.lost.toList) :
    PollPaced interval g' where
  tried := by
    rw [failures]
    exact paced.tried.later later
  few := by
    rw [failures]
    exact paced.few
  read := by
    rw [reads]
    exact paced.read.later later
  stamped := by
    rw [states, reads]
    exact paced.stamped
  passed := passed

section Walk

variable {interval : Duration} {timeout : Nat} {mint : Pubkey} {g : PollNotes}

theorem pollSleep_wp {d : Duration} {Q : PollNotes → Unit → Unit → Prop}
    (coherent : PollCoherent interval g) (empty : g.inHand = none)
    (done : ∀ now, g.seen + d ≤ now → Q { g with
      seen := now
      timer := none
      poller := if g.poller = .discovering ∧ g.failures.length = discoveryAttempts then .ended
        else g.poller } () ()) :
    Async.wp (pollProtocol interval timeout mint) (pollSleep d) Q g () := by
  refine ⟨coherent, empty, ?_⟩
  rintro w ⟨⟩ ⟨seen, _⟩
  refine ⟨?_, empty, ?_⟩
  · exact ⟨coherent.paced.later seen rfl rfl rfl coherent.paced.passed, coherent.alive,
      coherent.kept⟩
  rintro w' ⟨⟩ ⟨_, passed⟩
  exact done w'.clock ((Nat.add_le_add_right seen d).trans (passed rfl _ rfl))

theorem pollSleep_polling_wp {d : Duration} {Q : PollNotes → Unit → Unit → Prop}
    (coherent : PollCoherent interval g) (polls : g.poller = .polling) (empty : g.inHand = none)
    (done : ∀ now, g.seen + d ≤ now → Q { g with seen := now, timer := none } () ()) :
    Async.wp (pollProtocol interval timeout mint) (pollSleep d) Q g () := by
  refine pollSleep_wp coherent empty fun now passed => ?_
  rw [if_neg]
  · exact done now passed
  · simp [polls]

structure Looking (interval : Duration) (attempts : Nat) (g : PollNotes) : Prop where
  paced : PollPaced interval g
  poller : g.poller = if attempts = 0 then .ended else .discovering
  counted : g.failures.length + attempts = discoveryAttempts
  due : Due discoveryInterval g.failures g.seen
  unread : g.reads = []
  empty : g.inHand = none
  kept : g.lost = none ∧ g.gone = false ∧ g.panicked = false

structure Polls (interval : Duration) (pool : PoolInfo) (g : PollNotes) : Prop where
  coherent : PollCoherent interval g
  polling : g.poller = .polling
  pool : g.pool = some pool
  empty : g.inHand = none
  due : Due interval g.reads g.seen

theorem Looking.coherent {attempts : Nat} (looking : Looking interval (attempts + 1) g) :
    PollCoherent interval g := by
  refine ⟨looking.paced, ?_, looking.kept⟩
  rw [looking.poller]
  simp

theorem Looking.failed {attempts : Nat} {t now : Instant}
    (looking : Looking interval (attempts + 1) g) (seen : g.seen ≤ t)
    (passed : t + discoveryInterval ≤ now) :
    let failed : PollNotes := { g with failures := g.failures ++ [t], seen := t }
    PollCoherent interval failed ∧ Looking interval attempts { failed with
      seen := now
      timer := none
      poller := if failed.poller = .discovering ∧ failed.failures.length = discoveryAttempts
        then .ended else failed.poller } := by
  intro failed
  have ⟨paced, poller, counted, due, unread, empty, kept⟩ := looking
  have count : failed.failures.length + attempts = discoveryAttempts := by
    change (g.failures ++ [t]).length + attempts = discoveryAttempts
    rw [List.length_append, List.length_singleton]
    omega
  have discovering : failed.poller = .discovering := poller
  have paced' : PollPaced interval failed := by
    refine ⟨paced.tried.next due seen, by omega, paced.read.later seen, paced.stamped, paced.passed⟩
  have last : failed.failures.length = discoveryAttempts ↔ attempts = 0 := by omega
  refine ⟨⟨paced', ?_, kept⟩, ?_, ?_, count, ?_, unread, empty, kept⟩
  · rw [discovering]
    simp
  · exact paced'.later ((Nat.le_add_right _ _).trans passed) rfl rfl rfl paced'.passed
  · simp only [discovering, last, true_and]
  · intro t' final
    rw [List.getLast?_concat] at final
    cases final
    exact passed

def Discovery.leads (interval : Duration) (g : PollNotes) : Discovery → Prop
  | .found pool => Polls interval pool g
  | .gaveUp => PollEnded interval g
  | .panicked => PollEnded interval g

theorem discoverOnce_wp {attempts : Nat} (looking : Looking interval (attempts + 1) g) :
    Async.wp (pollProtocol interval timeout mint) (discoverOnce mint) (fun g' _ ended =>
      match ended with
      | some discovery => discovery.leads interval g'
      | none => Looking interval attempts g') g () := by
  have ⟨paced, poller, counted, due, unread, empty, kept⟩ := looking
  rw [discoverOnce]
  apply Async.wp_step looking.coherent
  · exact ⟨rfl, by simpa using poller, empty, by omega, due⟩
  intro w rpc timely
  have seen : g.seen ≤ w.clock := timely.1
  have answer : (pollProtocol interval timeout mint).next g w () (.findPool mint) rpc =
      { g.discovery w (findPool rpc mint) with seen := w.clock } := rfl
  rw [answer]
  generalize findPool rpc mint = found
  match found with
  | .ok pool =>
      refine ⟨⟨?_, nofun, kept⟩, rfl, rfl, empty, ?_⟩
      · exact paced.later seen rfl rfl rfl paced.passed
      · change Due interval g.reads w.clock
        rw [unread]
        exact nofun
  | .error .panicked => exact ⟨paced.later seen rfl rfl rfl paced.passed, .inr (.inr rfl)⟩
  | .error (.failed e) =>
      refine Async.wp_bind.mpr (pollSleep_wp ?_ empty ?_)
      · exact (looking.failed seen (Nat.le_refl _)).1
      · exact fun now passed => (looking.failed seen passed).2

theorem discoverFrom_wp {attempts : Nat} (looking : Looking interval attempts g) :
    Async.wp (pollProtocol interval timeout mint) (discoverFrom mint attempts)
      (fun g' _ discovery => discovery.leads interval g') g () := by
  induction attempts generalizing g with
  | zero => exact ⟨looking.paced, .inl looking.poller⟩
  | succ attempts ih =>
      refine Async.wp_bind.mpr (Async.wp_mono _ (discoverOnce_wp looking) ?_)
      intro g' l ended reached
      cases ended with
      | some discovery => exact reached
      | none => exact ih reached

theorem pollPause_wp {pool : PoolInfo} (coherent : PollCoherent interval g)
    (polls : g.poller = .polling) (found : g.pool = some pool) (empty : g.inHand = none) :
    Async.wp (pollProtocol interval timeout mint) (pollPause interval)
      (fun g' _ x => match x with
        | none => Polls interval pool g'
        | some () => PollEnded interval g') g () := by
  rw [pollPause]
  refine Async.wp_bind.mpr (pollSleep_polling_wp coherent polls empty ?_)
  intro now passed
  obtain ⟨paced, alive, lost, here, calm⟩ := coherent
  have seen : g.seen ≤ now := (Nat.le_add_right _ _).trans passed
  apply Async.wp_step
  · exact ⟨paced.later seen rfl rfl rfl paced.passed, alive, lost, here, calm⟩
  · exact ⟨empty, polls⟩
  rintro w closed ⟨later, _⟩
  cases closed with
  | true =>
      refine ⟨?_, .inr (.inl (Bool.or_true _))⟩
      exact paced.later (seen.trans later) rfl rfl rfl paced.passed
  | false =>
      refine ⟨⟨?_, alive, lost, ?_, calm⟩, polls, found, empty, ?_⟩
      · exact paced.later (seen.trans later) rfl rfl rfl paced.passed
      · exact (Bool.or_false _).trans here
      · intro t last
        have read : t ≤ g.seen := paced.read.past t last
        exact ((Nat.add_le_add_right read interval).trans passed).trans later

theorem pollSend_wp {pool : PoolInfo} {sample : Sample} (coherent : PollCoherent interval g)
    (polls : g.poller = .polling) (found : g.pool = some pool) (held : g.inHand = some sample) :
    Async.wp (pollProtocol interval timeout mint) (do
        let received ← Async.perform (PollOp.send sample.update)
        if received then pollPause interval else pure (some ()))
      (fun g' _ x => match x with
        | none => Polls interval pool g'
        | some () => PollEnded interval g') g () := by
  have ⟨paced, alive, lost, here, calm⟩ := coherent
  have passed : g.states = g.sent ++ [sample] := by
    rw [paced.passed, held, lost]
    exact List.append_nil _
  apply Async.wp_step coherent
  · exact ⟨polls, sample, held, rfl⟩
  rintro w received ⟨later, _⟩
  cases received with
  | false =>
      refine ⟨paced.later later rfl rfl rfl ?_, .inr (.inl rfl)⟩
      change g.states = g.sent ++ [] ++ g.inHand.toList
      rw [passed, held, List.append_nil]
      rfl
  | true =>
      apply pollPause_wp
      · refine ⟨paced.later later rfl rfl rfl ?_, alive, lost, here, calm⟩
        change g.states = g.sent ++ g.inHand.toList ++ [] ++ g.lost.toList
        rw [passed, held, lost, List.append_nil]
        exact (List.append_nil _).symm
      · exact polls
      · exact found
      · rfl

theorem pollRound_wp {pool : PoolInfo} (polls : Polls interval pool g) :
    Async.wp (pollProtocol interval timeout mint) (pollRound interval timeout pool)
      (fun g' _ x => match x with
        | none => Polls interval pool g'
        | some () => PollEnded interval g') g () := by
  have ⟨⟨paced, alive, lost, here, calm⟩, polling, found, empty, due⟩ := polls
  rw [pollRound]
  apply Async.wp_step polls.coherent
  · exact ⟨polling, found, empty, due⟩
  intro w ask timely
  have seen : g.seen ≤ w.clock := timely.1
  have answer : (pollProtocol interval timeout mint).next g w () (.readPool pool) ask =
      { g.reading w (fetchPoolState ask pool timeout) with seen := w.clock } := rfl
  rw [answer]
  have read : Spaced interval (g.reads ++ [w.clock]) w.clock := paced.read.next due seen
  generalize fetchPoolState ask pool timeout = answered
  match answered with
  | .error .panicked =>
      exact ⟨paced.later seen rfl rfl rfl paced.passed, .inr (.inr rfl)⟩
  | .error (.failed e) =>
      apply pollPause_wp
      · refine ⟨⟨paced.tried.later seen, paced.few, read, ?_, paced.passed⟩, alive, lost, here, calm⟩
        exact paced.stamped.trans (List.sublist_append_left _ _)
      · exact polling
      · exact found
      · exact empty
  | .ok state =>
      refine pollSend_wp ?_ ?_ ?_
        (show _ = some (⟨⟨state.priceSol, state.poolSol⟩, w.clock⟩ : Sample) from rfl)
      · refine ⟨⟨paced.tried.later seen, paced.few, read, ?_, ?_⟩, alive, lost, here, calm⟩
        · change ((g.states ++ [_]).map Sample.sampledAt).Sublist (g.reads ++ [w.clock])
          rw [List.map_append]
          exact paced.stamped.append (List.Sublist.refl _)
        · change g.states ++ [_] = g.sent ++ [_] ++ g.lost.toList
          rw [paced.passed, empty, lost, Option.toList_none, List.append_nil, List.append_nil,
            List.append_nil]
      · exact polling
      · exact found

variable {mint : String}

/-- The notes a poll task starts with; without a key for its mint it is over at once. -/
def PollNotes.start (mint : String) : PollNotes :=
  if (Pubkey.fromStr mint).isSome then {} else { poller := .ended }

variable (interval timeout mint) in
def pollRules : Protocol PollNotes PollWorld Unit PollOp PollReply :=
  pollProtocol interval timeout ((Pubkey.fromStr mint).getD ⟨0⟩)

theorem pricePoll_wp : Async.wp (pollRules interval timeout mint) (pricePoll interval timeout mint)
    (fun g _ _ => PollEnded interval g) (.start mint) () := by
  have nothing (poller : Poller) : PollPaced interval { poller := poller } :=
    ⟨⟨.nil, nofun⟩, Nat.zero_le _, ⟨.nil, nofun⟩, .refl _, rfl⟩
  rw [pollRules, pricePoll, PollNotes.start]
  cases Pubkey.fromStr mint with
  | none => exact ⟨nothing _, .inl rfl⟩
  | some mintPk =>
      refine Async.wp_bind.mpr (Async.wp_mono _ (discoverFrom_wp ?_) ?_)
      · exact ⟨nothing _, rfl, rfl, nofun, rfl, rfl, rfl, rfl, rfl⟩
      intro g l d done
      match d with
      | .gaveUp => exact done
      | .panicked => exact done
      | .found pool =>
          apply Async.wp_loop fun g _ => Polls interval pool g
          · exact done
          · exact fun _ _ polls => polls.coherent
          · intro g' l' polls
            refine Async.wp_mono _ (pollRound_wp polls) ?_
            intro g'' l'' x ended
            cases x with
            | none => exact ended
            | some u => exact ended

end Walk

section Runs

variable {interval : Duration} {timeout : Nat} {mint : String} {start : Instant}
  {admits : Trace PollWorld Unit PollOp PollReply PollEnv → Config PollWorld Unit PollOp PollReply →
    Label Unit PollOp PollReply PollEnv → Prop}
  {tr : Trace PollWorld Unit PollOp PollReply PollEnv} {c : Config PollWorld Unit PollOp PollReply}

def pollStart (interval : Duration) (timeout : Nat) (mint : String) (start : Instant) :
    Config PollWorld Unit PollOp PollReply :=
  ⟨{ clock := start }, [pricePoll interval timeout mint ()]⟩

variable (interval timeout mint) in
def pollNotes (tr : Trace PollWorld Unit PollOp PollReply PollEnv) : PollNotes :=
  ghost (pollRules interval timeout mint) (.start mint) 0 tr

/-- The notes have the clock and the timer of the task. -/
structure InStep (g : PollNotes) (w : PollWorld) : Prop where
  seen : g.seen ≤ w.clock
  timer : g.timer = w.timer

theorem InStep.next {g : PollNotes} {w w' : PollWorld} {o : PollOp} {r : PollReply o}
    (inStep : InStep g w) (granted : w.perform o r = some w') :
    InStep (g.next timeout w o r) w' := by
  obtain ⟨seen, timer⟩ := inStep
  cases o with
  | findPool mint =>
      cases granted
      refine ⟨le_rfl, ?_⟩
      rw [← timer, PollNotes.next, PollNotes.entry]
      generalize findPool r mint = found
      match found with
      | .ok pool => rfl
      | .error .panicked => rfl
      | .error (.failed e) => rfl
  | readPool pool =>
      cases granted
      refine ⟨le_rfl, ?_⟩
      rw [← timer, PollNotes.next, PollNotes.entry]
      generalize fetchPoolState r pool timeout = answered
      match answered with
      | .ok state => rfl
      | .error .panicked => rfl
      | .error (.failed e) => rfl
  | send u =>
      rw [PollWorld.perform] at granted
      split_ifs at granted with _ taken
      · cases granted
        cases taken
        exact ⟨le_rfl, timer⟩
      · cases granted
        obtain rfl : r = false := Bool.eq_false_iff.mpr taken
        exact ⟨le_rfl, timer⟩
  | arm d =>
      cases granted
      exact ⟨le_rfl, rfl⟩
  | wake =>
      rw [PollWorld.perform] at granted
      split at granted
      · cases granted
      · split_ifs at granted
        cases granted
        exact ⟨le_rfl, rfl⟩
  | isClosed =>
      rw [PollWorld.perform] at granted
      split_ifs at granted
      cases granted
      exact ⟨le_rfl, timer⟩

theorem polling_spawns (w : PollWorld) (e : PollEnv) (w' : PollWorld) (ts : List PollProc)
    (granted : polling.env w e = some (w', ts)) : w.env e = some w' ∧ ts = [] := by
  obtain ⟨w'', here, same⟩ := Option.map_eq_some_iff.mp granted
  cases same
  exact ⟨here, rfl⟩

theorem InStep.env {g : PollNotes} {w w' : PollWorld} {e : PollEnv} (inStep : InStep g w)
    (granted : w.env e = some w') : InStep g w' := by
  obtain ⟨seen, timer⟩ := inStep
  cases e with
  | advance d =>
      cases granted
      exact ⟨seen.trans (Nat.le_add_right _ _), timer⟩
  | receive =>
      rw [PollWorld.env] at granted
      split at granted
      · cases granted
        exact ⟨seen, timer⟩
      · cases granted
  | drop =>
      cases granted
      exact ⟨seen, timer⟩

theorem timer_over {w w' : PollWorld} {t : Instant} (armed : w.timer = some t)
    (granted : w.perform .wake () = some w') : t ≤ w.clock := by
  simp only [PollWorld.perform, armed] at granted
  split_ifs at granted with passed
  exact passed

theorem inStep_of_run (run : Run polling admits (pollStart interval timeout mint start) tr c) :
    InStep (pollNotes interval timeout mint tr) c.shared := by
  apply run.alone (pollRules interval timeout mint) (.start mint) InStep
  · exact fun s e s' ts granted => (polling_spawns s e s' ts granted).2
  · rfl
  · rw [PollNotes.start]
    split_ifs <;> exact ⟨Nat.zero_le _, rfl⟩
  · intro tr c l o r s' resume _ _ _ inStep granted
    exact inStep.next granted
  · intro g s e s' ts inStep granted
    exact inStep.env (polling_spawns s e s' ts granted).1

theorem polls_of_run (run : Run polling admits (pollStart interval timeout mint start) tr c)
    {t : PollProc} (here : c.tasks[0]? = some t) :
    t.wp (pollRules interval timeout mint) (fun g _ _ => PollEnded interval g)
      (pollNotes interval timeout mint tr) := by
  refine run.protocol _ _ _ ?_ ?_ ?_ 0 t here
  · intro t' mem
    cases List.mem_singleton.mp mem
    exact pricePoll_wp
  · intro s e s' ts granted t' mem
    rw [(polling_spawns s e s' ts granted).2] at mem
    cases mem
  · intro tr' c' before i l o r s' resume pending _ _ _ granted
    have spawned : i < c'.tasks.length := (List.getElem?_eq_some_iff.mp pending).1
    have lone := before.one_task
      (fun s e s' ts granted => (polling_spawns s e s' ts granted).2) rfl
    obtain rfl : i = 0 := by omega
    obtain ⟨seen, timer⟩ := inStep_of_run before
    refine ⟨seen, ?_⟩
    rintro rfl t' armed
    exact timer_over (timer.symm.trans armed) granted

theorem pending_task (run : Run polling admits (pollStart interval timeout mint start) tr c) :
    ∃ t, c.tasks[0]? = some t := by
  have lone := run.one_task (fun s e s' ts granted => (polling_spawns s e s' ts granted).2) rfl
  have first : 0 < c.tasks.length := by omega
  exact ⟨_, List.getElem?_eq_getElem first⟩

/-- What reached the channel is what the session received, and what it has not yet. -/
structure Delivered (g : PollNotes) (w : PollWorld) : Prop where
  channel : w.channel = (g.sent.drop w.received).map Sample.update
  received : w.received ≤ g.sent.length
  gone : g.gone = true → w.dropped = true

theorem Delivered.next {g : PollNotes} {w w' : PollWorld} {o : PollOp} {r : PollReply o}
    (delivered : Delivered g w) {mintPk : Pubkey} (permitted : PollPermits interval mintPk g o)
    (granted : w.perform o r = some w') : Delivered (g.next timeout w o r) w' := by
  have ⟨channel, received, gone⟩ := delivered
  cases o with
  | findPool mint =>
      cases granted
      rw [PollNotes.next, PollNotes.entry]
      generalize findPool r mint = found
      match found with
      | .ok pool => exact ⟨channel, received, gone⟩
      | .error .panicked => exact ⟨channel, received, gone⟩
      | .error (.failed e) => exact ⟨channel, received, gone⟩
  | readPool pool =>
      cases granted
      rw [PollNotes.next, PollNotes.entry]
      generalize fetchPoolState r pool timeout = answered
      match answered with
      | .ok state => exact ⟨channel, received, gone⟩
      | .error .panicked => exact ⟨channel, received, gone⟩
      | .error (.failed e) => exact ⟨channel, received, gone⟩
  | send u =>
      obtain ⟨_, sample, held, rfl⟩ := permitted
      rw [PollWorld.perform] at granted
      split_ifs at granted with here taken
      · cases granted
        cases taken
        refine ⟨?_, ?_, gone⟩
        · change w.channel ++ [sample.update] =
            ((g.sent ++ g.inHand.toList).drop w.received).map Sample.update
          rw [List.drop_append_of_le_length received, List.map_append, ← channel, held]
          rfl
        · change w.received ≤ (g.sent ++ g.inHand.toList).length
          rw [List.length_append]
          exact received.trans (Nat.le_add_right _ _)
      · cases granted
        obtain rfl : r = false := Bool.eq_false_iff.mpr taken
        refine ⟨channel, received, ?_⟩
        exact fun _ => (Bool.eq_true_of_not_eq_false fun off => here off.symm)
  | arm d =>
      cases granted
      exact ⟨channel, received, gone⟩
  | wake =>
      rw [PollWorld.perform] at granted
      split at granted
      · cases granted
      · split_ifs at granted
        cases granted
        exact ⟨channel, received, gone⟩
  | isClosed =>
      rw [PollWorld.perform] at granted
      split_ifs at granted with same
      cases granted
      refine ⟨channel, received, ?_⟩
      intro found
      rcases Bool.or_eq_true_iff.mp found with before | now
      · exact gone before
      · exact same ▸ now

theorem Delivered.env {g : PollNotes} {w w' : PollWorld} {e : PollEnv} (delivered : Delivered g w)
    (granted : w.env e = some w') : Delivered g w' := by
  obtain ⟨channel, received, gone⟩ := delivered
  cases e with
  | advance d =>
      cases granted
      exact ⟨channel, received, gone⟩
  | receive =>
      rw [PollWorld.env] at granted
      split at granted
      · next head rest _ queued =>
          cases granted
          rw [queued] at channel
          have more : w.received < g.sent.length := by
            by_contra all
            rw [List.drop_of_length_le (not_lt.mp all)] at channel
            cases channel
          rw [List.drop_eq_getElem_cons more, List.map_cons] at channel
          exact ⟨(List.cons.inj channel).2, more, gone⟩
      · cases granted
  | drop =>
      cases granted
      exact ⟨channel, received, fun _ => rfl⟩

theorem delivered_of_run (run : Run polling admits (pollStart interval timeout mint start) tr c) :
    Delivered (pollNotes interval timeout mint tr) c.shared := by
  apply run.alone (pollRules interval timeout mint) (.start mint) Delivered
  · exact fun s e s' ts granted => (polling_spawns s e s' ts granted).2
  · rfl
  · rw [PollNotes.start]
    split_ifs <;> exact ⟨rfl, Nat.zero_le _, nofun⟩
  · intro tr c l o r s' resume before pending _ delivered granted
    exact delivered.next (polls_of_run before pending).2.1 granted
  · intro g s e s' ts delivered granted
    exact delivered.env (polling_spawns s e s' ts granted).1

theorem paced_of_run (run : Run polling admits (pollStart interval timeout mint start) tr c) :
    PollPaced interval (pollNotes interval timeout mint tr) := by
  obtain ⟨t, here⟩ := pending_task run
  have kept := polls_of_run run here
  cases finished : t.finished with
  | false => exact (Proc.coherent_of_running kept finished).paced
  | true =>
      obtain ⟨_, ended⟩ := Proc.returned_of_finished kept finished
      exact ended.paced

/-- Whatever the node answers, and whenever the session takes its updates or goes away: a poll task
makes at most ten attempts to find the pool, two seconds apart, and reads the vaults no more often
than once in an interval. The states it read are, in their order, those that the session received,
those in the channel, the one in hand, and after the session is gone the one that found no
receiver. -/
theorem pollTask_paced (run : Run polling always (pollStart interval timeout mint start) tr c) :
    PollPaced interval (pollNotes interval timeout mint tr) ∧
      Delivered (pollNotes interval timeout mint tr) c.shared :=
  ⟨paced_of_run run, delivered_of_run run⟩

def fullVaults (keys : List Pubkey) : Option (Except String (List (Option StoredAccount))) :=
  some (.ok (keys.map fun _ => some (tokenAccount 1)))

/-- A node that finds no pool at first, and lists one a second later. -/
def lateNode (w : PollWorld) : (o : PollOp) → PollReply o
  | .findPool _ =>
      if w.clock < fromSecs 1 then { listedRpc with largest := fun _ => none } else listedRpc
  | .readPool _ => fullVaults
  | .send _ => true
  | .arm _ => ()
  | .wake => ()
  | .isClosed => w.dropped

/-- Two attempts two seconds apart, and two reads a second apart. The session has received what the
first returned; what the second returned is in the channel. -/
theorem pollTask_paced_late :
    ∃ tr c, Run polling always (pollStart (fromSecs 1) 1 Tasks.someMint 0) tr c ∧
      (pollNotes (fromSecs 1) 1 Tasks.someMint tr).failures = [0] ∧
      (pollNotes (fromSecs 1) 1 Tasks.someMint tr).reads = [fromSecs 2, fromSecs 3] ∧
      c.shared.received = 1 ∧ c.shared.channel.length = 1 ∧
      PollPaced (fromSecs 1) (pollNotes (fromSecs 1) 1 Tasks.someMint tr) ∧
      Delivered (pollNotes (fromSecs 1) 1 Tasks.someMint tr) c.shared := by
  obtain ⟨tr, c, run, reached⟩ := System.script_reaches polling
    (pollStart (fromSecs 1) 1 Tasks.someMint 0)
    (List.replicate 2 (.task 0 lateNode) ++ .env (.advance (fromSecs 2)) ::
      List.replicate 5 (.task 0 lateNode) ++ .env .receive ::
      .task 0 lateNode :: .env (.advance (fromSecs 1)) :: List.replicate 5 (.task 0 lateNode))
    (fun tr c => (pollNotes (fromSecs 1) 1 Tasks.someMint tr).failures = [0] ∧
      (pollNotes (fromSecs 1) 1 Tasks.someMint tr).reads = [fromSecs 2, fromSecs 3] ∧
      c.shared.received = 1 ∧ c.shared.channel.length = 1)
    (by decide +kernel)
  obtain ⟨failures, reads, received, queued⟩ := of_decide_eq_true reached
  exact ⟨tr, c, run, failures, reads, received, queued, pollTask_paced run⟩

end Runs

end HadesPsTrader.Feeds
