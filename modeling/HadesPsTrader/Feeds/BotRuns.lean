/- Module: HadesPsTrader/Feeds/BotRuns
   source: src/main.rs, src/session.rs, src/price_feed.rs, src/pumpportal.rs
   digest: Where the sessions of the bot come from, and the prices that they decide on. -/

import HadesPsTrader.Feeds.BotRefines

set_option autoImplicit false
set_option relaxedAutoImplicit false

namespace HadesPsTrader.Feeds

open HadesPsTrader.Interaction HadesPsTrader.Chain
open HadesPsTrader.Market (Instant Duration)
open Tasks (Sample Op Reply Value World TaskProc SessionLocals MigrationEvent Stems lookups
  receivedTicks receivedTicks_append sampleOf)

section Sends

variable {interval : Duration} {timeout : Nat} {side side' : PollSide} {g : PollNotes}
  {p p' : PollWorld} {o : PollOp} {r : PollReply o}

theorem next_silent (silent : ∀ u, o ≠ .send u) :
    (g.next timeout p o r).sent = g.sent ∧ (g.next timeout p o r).lost = g.lost ∧
      ((g.next timeout p o r).gone = false → g.gone = false) := by
  cases o with
  | findPool mint =>
      rw [PollNotes.next, PollNotes.entry]
      generalize findPool r mint = found
      cases found with
      | ok pool => exact ⟨rfl, rfl, id⟩
      | error fault => cases fault <;> exact ⟨rfl, rfl, id⟩
  | readPool pool =>
      rw [PollNotes.next, PollNotes.entry]
      generalize fetchPoolState r pool timeout = answered
      cases answered with
      | ok state => exact ⟨rfl, rfl, id⟩
      | error fault => cases fault <;> exact ⟨rfl, rfl, id⟩
  | send u => exact absurd rfl (silent u)
  | arm d => exact ⟨rfl, rfl, id⟩
  | wake => exact ⟨rfl, rfl, id⟩
  | isClosed => exact ⟨rfl, rfl, fun open_ => (Bool.or_eq_false_iff.mp open_).1⟩

theorem sent_grows : g.sent <+: (g.next timeout p o r).sent := by
  cases o with
  | send u =>
      cases r with
      | true => exact List.prefix_append _ _
      | false => exact List.prefix_rfl
  | _ =>
      rw [(next_silent (by simp)).1]

variable (interval timeout) in
/-- What a session has received of its channel. -/
def PollSide.taken (side : PollSide) : List Sample :=
  (side.notes interval timeout).sent.take side.now.shared.received

theorem PollSide.taken_waiting :
    side.taken interval timeout ++ side.waiting interval timeout =
      (side.notes interval timeout).sent :=
  List.take_append_drop _ _

theorem taken_moved {e : Label Unit PollOp PollReply PollEnv}
    {now : Interaction.Config PollWorld Unit PollOp PollReply} (runs : side.Runs interval timeout)
    (moved : Step polling side.now e now) (own : ∀ x, e ≠ .env x) :
    (side.moved e now).taken interval timeout = side.taken interval timeout := by
  have received := runs.delivered.received
  obtain ⟨start, run⟩ := runs
  cases moved with
  | @perform j l o resume r s' pending granted =>
      obtain rfl := lone_poll run pending
      have kept : s'.received = side.now.shared.received := (receiver_of_perform granted).2
      have notes : (side.moved (.perform 0 l o r) ⟨s', side.now.tasks.set 0 (resume r)⟩).notes
          interval timeout = (side.notes interval timeout).next timeout side.now.shared o r :=
        ghost_perform_self 0 side.log side.now.shared l o r
      rw [PollSide.taken, PollSide.taken, notes]
      change List.take s'.received _ = _
      rw [kept]
      obtain ⟨more, grown⟩ : (side.notes interval timeout).sent <+:
          ((side.notes interval timeout).next timeout side.now.shared o r).sent := sent_grows
      rw [← grown, List.take_append_of_le_length received]
  | unroll pending =>
      change List.take side.now.shared.received
        (pollNotes interval timeout side.mint (side.log ++ [_])).sent = _
      rw [pollNotes, ghost_unroll]
      rfl
  | env granted => exact absurd rfl (own _)

theorem taken_after {e : PollEnv} (moved : side.after e = some side') (other : e ≠ .receive) :
    side'.taken interval timeout = side.taken interval timeout := by
  rw [PollSide.taken, PollSide.taken, notes_after moved]
  obtain ⟨granted, _⟩ := after_env moved
  cases e with
  | advance d =>
      rw [← Option.some.inj granted]
  | receive => exact absurd rfl other
  | drop =>
      rw [← Option.some.inj granted]

theorem taken_receive {s : Sample} (moved : side.after .receive = some side')
    (head : (side.waiting interval timeout).head? = some s) :
    side'.taken interval timeout = side.taken interval timeout ++ [s] := by
  rw [PollSide.taken, PollSide.taken, notes_after moved]
  obtain ⟨granted, _⟩ := after_env moved
  have one : side'.now.shared.received = side.now.shared.received + 1 := by
    rw [PollWorld.env] at granted
    split at granted
    · rw [← Option.some.inj granted]
    · cases granted
  rw [PollSide.waiting, List.head?_drop] at head
  rw [one, List.take_add_one, head]
  rfl

variable {mint : String} {start : Instant}
  {tr : Trace PollWorld Unit PollOp PollReply PollEnv}
  {c : Interaction.Config PollWorld Unit PollOp PollReply}

/-- What was read is lost to a receiver that is gone only. -/
theorem kept_of_run (run : Run polling faithfully (pollStart interval timeout mint start) tr c) :
    (pollNotes interval timeout mint tr).gone = false →
      (pollNotes interval timeout mint tr).lost = none := by
  apply run.alone (pollRules interval timeout mint) (.start mint) fun g _ =>
    g.gone = false → g.lost = none
  · exact fun s e s' ts granted => (polling_spawns s e s' ts granted).2
  · rfl
  · rw [PollNotes.start]
    split_ifs <;> exact fun _ => rfl
  · intro tr c l o r s' resume _ _ _ kept _
    change (PollNotes.next timeout _ c.shared o r).gone = false →
      (PollNotes.next timeout _ c.shared o r).lost = none
    cases o with
    | send u =>
        cases r with
        | true => exact kept
        | false =>
            intro gone
            cases gone
    | _ =>
        rw [(next_silent (by simp)).2.1]
        exact fun still => kept ((next_silent (by simp)).2.2 still)
  · exact fun kept _ => kept

end Sends

section Runs

variable {cfg : Market.Config} {dryRun : Bool} {fromStr : String → Option Value}
  {interval : Duration} {timeout : Nat} {start : Instant} {ops : List (Nat × Sigma Reply)}
  {b : Bot}

/-- What the sessions received is what they took from their polls. -/
def Seen (interval : Duration) (timeout : Nat) (ops : List (Nat × Sigma Reply)) (b : Bot) : Prop :=
  ∀ i side, b.polls i = some side → receivedTicks i ops = side.taken interval timeout

theorem Seen.setPoll {i : Nat} {side : PollSide} {ops' : List (Nat × Sigma Reply)}
    (seen : Seen interval timeout ops b)
    (others : ∀ j, j ≠ i → receivedTicks j ops' = receivedTicks j ops)
    (own : receivedTicks i ops' = side.taken interval timeout) :
    Seen interval timeout ops' (b.setPoll i side) := by
  intro j side' polled
  rw [Bot.setPoll] at polled
  dsimp only at polled
  by_cases same : j = i
  · subst same
    rw [Function.update_self] at polled
    cases polled
    exact own
  · rw [Function.update_of_ne same] at polled
    rw [others j same]
    exact seen j side' polled

theorem seen_of_run (run : BotRun cfg dryRun fromStr interval timeout start ops b) :
    Seen interval timeout ops b := by
  induction run with
  | start =>
      intro i side polled
      cases polled
  | @perform ops b b' i l o resume r before pending granted ih =>
      have others (j : Nat) (other : j ≠ i) :
          receivedTicks j (ops ++ [(i, ⟨o, r⟩)]) = receivedTicks j ops := by
        rw [receivedTicks_append, if_neg (Ne.symm other), List.append_nil]
      have own : receivedTicks i (ops ++ [(i, ⟨o, r⟩)]) =
          receivedTicks i ops ++ (sampleOf o r).toList := by
        rw [receivedTicks_append, if_pos rfl]
      rcases perform_cases granted with ⟨mint, rfl, rfl⟩ |
        ⟨s, side, side', tick, polled, head, moved, rfl⟩ | ⟨quiet, v, rfl⟩
      · apply ih.setPoll others
        obtain ⟨tr, w, follows⟩ := follows_of_run before
        have nothing := (Tasks.unpolled_at_spawn follows.run pending).2
        rw [own, ← follows.performed, nothing]
        rfl
      · apply ih.setPoll others
        rw [own, tick, ih i side polled, taken_receive moved head]
        rfl
      · intro j side polled
        have polled : b.polls j = some side := polled
        rw [← ih j side polled]
        by_cases other : j = i
        · subst other
          rw [own, quiet]
          exact List.append_nil _
        · exact others j other
  | unroll before pending ih => exact ih
  | advance d before ih =>
      intro i side' polled
      obtain ⟨side, here, moved⟩ := Option.bind_eq_some_iff.mp polled
      rw [taken_after moved (by simp)]
      exact ih i side here
  | fire before granted ih => exact ih
  | @poll ops b i side e now before here moved own faithful ih =>
      obtain ⟨tr, w, follows⟩ := follows_of_run before
      apply ih.setPoll fun _ _ => rfl
      rw [taken_moved (follows.agrees.polled i side here).runs moved own]
      exact ih i side here
  | @drop ops b i side side' before here ended gone ih =>
      apply ih.setPoll fun _ _ => rfl
      rw [taken_after gone (by simp)]
      exact ih i side here
  | listen before moved present ih => exact ih
  | migrate before next ih => exact ih

theorem Spaced.pairwise {d : Duration} {ts : List Instant} {now : Instant}
    (spaced : Spaced d ts now) : ts.Pairwise fun a b => a + d ≤ b := by
  have transitive : Trans (fun a b : Instant => a + d ≤ b) (fun a b => a + d ≤ b)
      (fun a b => a + d ≤ b) :=
    ⟨fun first second => first.trans ((Nat.le_add_right _ _).trans second)⟩
  exact List.isChain_iff_pairwise.mp spaced.apart

/-- From the chain to the decision: the prices that a session has decided on, with those in its
channel behind them, are all that its poll task has sent, in the order of the reads. Of what was
read in time nothing is lost while the session is there, and any two of the prices were read at
least an interval apart. -/
theorem prices_are_reads (run : BotRun cfg dryRun fromStr interval timeout start ops b) {i : Nat}
    {side : PollSide} (polled : b.polls i = some side) :
    receivedTicks i ops ++ side.waiting interval timeout = (side.notes interval timeout).sent ∧
      side.now.shared.channel = (side.waiting interval timeout).map Sample.update ∧
      PollPaced interval (side.notes interval timeout) ∧
      (side.now.shared.dropped = false → (side.notes interval timeout).lost = none) ∧
      (receivedTicks i ops).Pairwise fun s s' => s.sampledAt + interval ≤ s'.sampledAt := by
  obtain ⟨tr, w, follows⟩ := follows_of_run run
  have runs := (follows.agrees.polled i side polled).runs
  have delivered := runs.delivered
  have seen := seen_of_run run i side polled
  obtain ⟨began, alone⟩ := runs
  have paced : PollPaced interval (side.notes interval timeout) := paced_of_run alone
  refine ⟨?_, delivered.channel, paced, ?_, ?_⟩
  · rw [seen]
    exact PollSide.taken_waiting
  · intro present
    apply kept_of_run alone
    cases gone : (pollNotes interval timeout side.mint side.log).gone with
    | false => rfl
    | true =>
        have dropped := delivered.gone gone
        rw [present] at dropped
        cases dropped
  · rw [seen]
    have taken : (side.taken interval timeout).Sublist (side.notes interval timeout).states := by
      rw [paced.passed, List.append_assoc]
      exact (List.take_sublist _ _).trans (List.sublist_append_left _ _)
    have stamps := (taken.map Sample.sampledAt).trans paced.stamped
    exact List.pairwise_map.mp (paced.read.pairwise.sublist stamps)

theorem prices_are_reads_one_price : ∃ ops, ∃ b : Bot, ∃ side, b.polls 0 = some side ∧
    (receivedTicks 0 ops).length = 1 ∧
    receivedTicks 0 ops ++ side.waiting 1 1 = (side.notes 1 1).sent ∧
    side.now.shared.channel = (side.waiting 1 1).map Sample.update ∧
    PollPaced 1 (side.notes 1 1) ∧
    (side.now.shared.dropped = false → (side.notes 1 1).lost = none) ∧
    (receivedTicks 0 ops).Pairwise fun s s' => s.sampledAt + 1 ≤ s'.sampledAt := by
  obtain ⟨ops, b, side, run, polled, one, _⟩ := one_price
  exact ⟨ops, b, side, polled, one, prices_are_reads run polled⟩

theorem sent_of_listens {α : Type} {sub : Subscription α}
    {log : Trace Unit ListenLocals (ListenOp α) ListenReply Empty}
    {c : Interaction.Config Unit ListenLocals (ListenOp α) ListenReply}
    (run : Run (alone α) always ⟨(), [listen fromStr sub {}]⟩ log c) :
    sent (history 0 log) <+: events fromStr sub (history 0 log) := by
  apply run.invariant fun log _ => sent (history 0 log) <+: events fromStr sub (history 0 log)
  · exact List.prefix_rfl
  intro log c e c' before ih _ moved
  cases moved with
  | @perform j l o resume r s' pending granted =>
      have lone := before.one_task (fun _ e => nomatch e) rfl
      have first : j < c.tasks.length := (List.getElem?_eq_some_iff.mp pending).1
      obtain rfl : j = 0 := by omega
      have passes := (permitted_of_waits ⟨log, before, rfl⟩ ⟨l, resume, pending⟩).1
      have done : history 0 (log ++ [(c.shared, .perform 0 l o r)]) =
          history 0 log ++ [⟨o, r⟩] := by
        simp [history]
      rw [done, sent, events, List.filterMap_append, List.filterMap_append, ← sent, ← events]
      cases o with
      | send a =>
          rw [passes.sending a rfl]
          exact List.prefix_append _ _
      | read =>
          rw [passes.idle (by simp)]
          exact (List.prefix_append_right_inj _).mpr List.nil_prefix
      | _ =>
          rw [passes.idle (by simp)]
          exact List.prefix_rfl
  | @unroll j β l body exit pending =>
      have done : history 0 (log ++ [(c.shared, .unroll j)]) = history 0 log := by
        simp [history]
      rw [done]
      exact ih
  | @env e s' ts granted => cases e

theorem sent_moved {x : Intake} {e : Label ListenLocals (ListenOp MigrationEvent) ListenReply Empty}
    {now : Interaction.Config Unit ListenLocals (ListenOp MigrationEvent) ListenReply}
    (lone : x.now.tasks.length = 1) (moved : Step (alone MigrationEvent) x.now e now)
    (present : ∀ j l ev r, e = .perform j l (.send ev) r → r = true) :
    sent (x.moved e now).heard = sent x.heard ++ Intake.pushed e := by
  cases moved with
  | @perform j l o resume r s' pending granted =>
      have first : j < x.now.tasks.length := (List.getElem?_eq_some_iff.mp pending).1
      obtain rfl : j = 0 := by omega
      have done : (x.moved (.perform 0 l o r) ⟨s', x.now.tasks.set 0 (resume r)⟩).heard =
          x.heard ++ [⟨o, r⟩] := by
        simp [Intake.heard, Intake.moved, history]
      rw [done, sent, List.filterMap_append, ← sent]
      cases o with
      | send ev =>
          obtain rfl : r = true := present 0 l ev r rfl
          rfl
      | _ => rfl
  | @unroll j β l body exit pending =>
      simp [Intake.heard, Intake.moved, Intake.pushed, history]
  | @env e s' ts granted => cases e

/-- The listener as it may stand in a run of its own, with its channel. -/
structure Intake.Runs (fromStr : String → Option Value) (x : Intake) : Prop where
  run : Run (alone MigrationEvent) always ⟨(), [migrationListener fromStr {}]⟩ x.log x.now
  delivered : x.received ++ x.channel = sent x.heard

theorem intake_of_run (run : BotRun cfg dryRun fromStr interval timeout start ops b) :
    b.intake.Runs fromStr := by
  induction run with
  | start => exact ⟨.start, rfl⟩
  | @perform ops b b' i l o resume r before pending granted ih =>
      change b'.intake.Runs fromStr
      rw [(perform_rest granted).2]
      exact ih
  | unroll before pending ih => exact ih
  | advance d before ih => exact ih
  | fire before granted ih => exact ih
  | poll before here moved own faithful ih => exact ih
  | drop before here ended gone ih => exact ih
  | @listen ops b e now before moved present ih =>
      have lone := ih.run.one_task (fun _ e => nomatch e) rfl
      refine ⟨ih.run.step trivial moved, ?_⟩
      rw [sent_moved lone moved present, ← ih.delivered]
      exact (List.append_assoc _ _ _).symm
  | @migrate ops b ev before next ih =>
      refine ⟨ih.run, ?_⟩
      obtain ⟨rest, channel⟩ := List.head?_eq_some_iff.mp next
      change (b.intake.received ++ [ev]) ++ b.intake.channel.tail = sent b.intake.heard
      rw [← ih.delivered, channel, List.append_assoc]
      rfl

/-- From the frame to the session: the sessions belong to the graduations that `main` has received,
one to each and in their order, under the name and the symbol of the frame or those that the session
has looked up itself; with those in the channel behind them these are all that the listener has
sent, and it sends what the frames tell it in their order. -/
theorem sessions_follow_frames (run : BotRun cfg dryRun fromStr interval timeout start ops b) :
    b.tasks.length = b.intake.received.length ∧
      (∀ (i : Nat) t, b.tasks[i]? = some t →
        ∃ ev, b.intake.received[i]? = some ev ∧ Stems ev (lookups i ops) t) ∧
      b.intake.received ++ b.intake.channel = sent b.intake.heard ∧
      sent b.intake.heard <+: events fromStr migrationFeed b.intake.heard := by
  obtain ⟨tr, w, follows⟩ := follows_of_run run
  obtain ⟨listens, delivered⟩ := intake_of_run run
  refine ⟨?_, ?_, delivered, sent_of_listens listens⟩
  · rw [← follows.migrated]
    exact Tasks.tasks_of_run follows.run
  · intro i t here
    obtain ⟨ev, event, stems⟩ := Tasks.session_events follows.run here
    rw [follows.migrated] at event
    rw [events_exchanges, follows.performed] at stems
    exact ⟨ev, event, stems⟩

/-- The session of the one frame that was heard, which had no name. -/
theorem sessions_follow_frames_one_price : ∃ ops, ∃ b : Bot, (receivedTicks 0 ops).length = 1 ∧
    lookups 0 ops = [(⟨0⟩, .ok ("Token", "TOKEN"))] ∧
    b.tasks.length = b.intake.received.length ∧
    (∀ (i : Nat) t, b.tasks[i]? = some t →
      ∃ ev, b.intake.received[i]? = some ev ∧ Stems ev (lookups i ops) t) ∧
    b.intake.received ++ b.intake.channel = sent b.intake.heard ∧
    sent b.intake.heard <+: events mintFrame migrationFeed b.intake.heard := by
  obtain ⟨ops, b, side, run, polled, one, looked, _⟩ := one_price
  exact ⟨ops, b, one, looked, sessions_follow_frames run⟩

end Runs

end HadesPsTrader.Feeds
