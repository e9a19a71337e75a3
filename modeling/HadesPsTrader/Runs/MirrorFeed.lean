/- Module: HadesPsTrader/Runs/MirrorFeed
   source: src/main.rs, src/copy_session.rs
   digest: No close of the followed wallet is missed between the copied buy and the exit. -/

import HadesPsTrader.Runs.CopyMode
import HadesPsTrader.Runs.MirrorDiscipline

set_option autoImplicit false
set_option relaxedAutoImplicit false

namespace HadesPsTrader.Tasks

open HadesPsTrader.Market HadesPsTrader.Chain HadesPsTrader.Interaction

section Receivers

variable {α : Type}

/-- A receiver that lost nothing: what it got and what it holds is what was sent, in order. -/
structure Receiver.Intact (sent got : List α) (r : Receiver α) : Prop where
  lost : r.lost = 0
  order : got ++ r.queue = sent

namespace Receiver.Intact

variable {sent got : List α} {r r' : Receiver α}

theorem push {capacity : Nat} (h : r.Intact sent got) (room : r.queue.length < capacity) (a : α) :
    (r.push capacity a).Intact (sent ++ [a]) got := by
  rw [Receiver.push, if_pos room]
  constructor
  · exact h.lost
  · rw [← h.order, List.append_assoc]

theorem recv [DecidableEq α] {x : Received α} (h : r.Intact sent got)
    (received : r.recv x = some r') : ∃ a, x = .got a ∧ r'.Intact sent (got ++ [a]) := by
  rw [Receiver.recv, if_neg (by rw [h.lost]; exact lt_irrefl 0)] at received
  cases queue : r.queue with
  | nil => simp [queue] at received
  | cons a rest =>
      simp only [queue] at received
      split_ifs at received with same
      cases received
      refine ⟨a, same, h.lost, ?_⟩
      rw [← h.order, queue, List.append_assoc]
      rfl

end Receiver.Intact

theorem Receiver.recv_closed [DecidableEq α] (r : Receiver α) : r.recv .closed = none := by
  unfold Receiver.recv
  cases r.queue with
  | nil => simp
  | cons a rest => simp

end Receivers

section Steps

variable {w w' : World} {i j : Nat} {o : Op} {r : Reply o}

def frameGot : (o : Op) → Reply o → Option AlphaTrade
  | .copySelect _, .mirror (.got t) => some t
  | _, _ => none

/-- What an operation of task `i` does to the mirror feeds. -/
inductive MirrorMove (w : World) (i : Nat) (w' : World) : (o : Op) → Reply o → Prop
  | kept {o : Op} {r : Reply o} (same : w'.mirror = w.mirror) (quiet : frameGot o r = none) :
      MirrorMove w i w' o r
  | received {mirrorOpen : Bool} {x : Received AlphaTrade} {rx : Receiver AlphaTrade}
      (received : (w.mirror i).recv x = some rx)
      (now : w'.mirror = Function.update w.mirror i rx) :
      MirrorMove w i w' (.copySelect mirrorOpen) (.mirror x)

theorem World.recvTick_mirror {x : Option Sample} (h : w.recvTick i x = some w') :
    w'.mirror = w.mirror := by
  rcases World.recvTick_cases h with ⟨_, _, _, _, rfl⟩ | ⟨_, _, _, rfl⟩
  · rfl
  · rfl

theorem World.perform_mirror (h : w.perform i o r = some w') : MirrorMove w i w' o r := by
  cases o with
  | copySelect mirrorOpen =>
      rcases World.answerCopySelect_cases h with
        ⟨rfl, rfl⟩ | ⟨_, _, rfl, _, rfl⟩ | ⟨_, _, rfl, received, rfl⟩ | ⟨sample, rfl, received⟩
      · exact .kept rfl rfl
      · exact .kept rfl rfl
      · exact .received received rfl
      · exact .kept (World.recvTick_mirror received) rfl
  | now site => obtain ⟨_, rfl⟩ := World.perform_now.mp h; exact .kept rfl rfl
  | fetchAdd => obtain ⟨_, rfl⟩ := World.perform_fetchAdd.mp h; exact .kept rfl rfl
  | fetchSub => obtain ⟨_, rfl⟩ := World.perform_fetchSub.mp h; exact .kept rfl rfl
  | spendCheck now amountSol =>
      obtain ⟨_, rfl⟩ := World.perform_spendCheck.mp h
      exact .kept rfl rfl
  | spendRecord amountSol =>
      obtain ⟨_, rfl⟩ := World.perform_spendRecord.mp h
      exact .kept rfl rfl
  | select =>
      rcases World.answerSelect_cases h with ⟨_, rfl⟩ | ⟨sample, _, received⟩
      · exact .kept rfl rfl
      · exact .kept (World.recvTick_mirror received) rfl
  | recv => exact .kept (World.recvTick_mirror h) rfl
  | _ => cases h; exact .kept rfl rfl

/-- A select with the mirror branch enabled answers a price tick only when no frame is waiting. -/
theorem World.tick_after_frames {sample : Option Sample}
    (h : w.perform i (.copySelect true) (.tick sample) = some w') : (w.mirror i).queue = [] := by
  obtain ⟨waiting, _⟩ := Option.ite_none_left_eq_some.mp h
  rw [not_or, not_or] at waiting
  by_contra more
  exact waiting.2.2 ⟨rfl, .inr more⟩

theorem World.feed_open (h : w.perform i o r = some w') : FeedOpen o r := by
  cases o with
  | copySelect mirrorOpen =>
      rintro rfl
      have answered : w.answerCopySelect i mirrorOpen (.mirror .closed) = some w' := h
      rcases World.answerCopySelect_cases answered with
        ⟨other, _⟩ | ⟨_, _, other, _⟩ | ⟨_, rx, same, received, _⟩ | ⟨_, other, _⟩
      · cases other
      · cases other
      · cases same
        rw [Receiver.recv_closed] at received
        cases received
      · cases other
  | _ => trivial

end Steps

def sellsSince (i : Nat) (tr : CopyTrace) : List AlphaTrade :=
  tr.filterMap fun x => match x.2 with
    | .env (.frame t _) => if t.txType = "sell" ∧ i < x.1.spawned then some t else none
    | _ => none

def framesGot (i : Nat) (tr : CopyTrace) : List AlphaTrade := events i frameGot tr

def operations (i : Nat) (tr : CopyTrace) : List Op := events i (fun o _ => some o) tr

/-- The receiver of session `i` never lags by more than the capacity: a sell frame finds room in it
as long as the session runs. -/
def NeverLags (i : Nat) : CopyAdmit := fun _ c e => match e with
  | .env (.frame frame _) => frame.txType = "sell" → ∀ t, c.tasks[i]? = some t →
      t.finished = false → (c.shared.mirror i).queue.length < sellCapacity
  | _ => True

section Runs

variable {cfg : Market.Config} {dryRun : Bool} {start : Instant} {admits : CopyAdmit}
  {tr : CopyTrace} {c : CopyConfig} {i : Nat} {t : TaskProc CopyLocals}

section Log

variable {w : World} {e : CopyLabel}

theorem sellsSince_append : sellsSince i (tr ++ [(w, e)]) = sellsSince i tr ++ match e with
    | .env (.frame t _) => if t.txType = "sell" ∧ i < w.spawned then [t] else []
    | _ => [] := by
  rw [sellsSince, List.filterMap_append, ← sellsSince]
  congr 1
  cases e with
  | env e =>
      cases e with
      | frame t pause =>
          by_cases sell : t.txType = "sell" ∧ i < w.spawned
          · simp [sell]
          · simp [sell]
      | _ => rfl
  | _ => rfl

end Log

/-- What the receiver of a session is known to hold: nothing before the spawn, and while the session
runs what it has not taken yet. -/
structure Fed (i : Nat) (tr : CopyTrace) (c : CopyConfig) : Prop where
  unspawned : c.tasks.length ≤ i →
    c.shared.mirror i = {} ∧ sellsSince i tr = [] ∧ framesGot i tr = []
  running : ∀ t, c.tasks[i]? = some t → t.finished = false →
    (c.shared.mirror i).Intact (sellsSince i tr) (framesGot i tr)

namespace Fed

variable {w : World} {e : Env} {ts : List (TaskProc CopyLocals)}

theorem perform (kept : Fed i tr c) {j : Nat} {l : CopyLocals} {o : Op} {r : Reply o}
    {resume : Reply o → TaskProc CopyLocals} (pending : c.tasks[j]? = some (.op l o resume))
    (move : MirrorMove c.shared j w o r) :
    Fed i (tr ++ [(c.shared, .perform j l o r)]) ⟨w, c.tasks.set j (resume r)⟩ := by
  have sells : sellsSince i (tr ++ [(c.shared, .perform j l o r)]) = sellsSince i tr := by
    rw [sellsSince_append, List.append_nil]
  have spawned : j < c.tasks.length := (List.getElem?_eq_some_iff.mp pending).1
  -- the feed of a session that does not move
  have aside (other : j ≠ i) : w.mirror i = c.shared.mirror i ∧
      framesGot i (tr ++ [(c.shared, .perform j l o r)]) = framesGot i tr := by
    refine ⟨?_, events_other other⟩
    cases move with
    | kept same quiet => rw [same]
    | received received now => rw [now, Function.update_of_ne (Ne.symm other)]
  constructor
  · intro new
    rw [List.length_set] at new
    obtain ⟨same, quiet⟩ := aside (by omega)
    rw [same, sells, quiet]
    exact kept.unspawned new
  · intro t here running
    rw [sells]
    rcases eq_or_ne j i with rfl | other
    · have intact := kept.running _ pending rfl
      rw [framesGot, events_self, ← framesGot]
      cases move with
      | kept same quiet =>
          rw [same, quiet, Option.toList_none, List.append_nil]
          exact intact
      | received received now =>
          obtain ⟨a, rfl, intact'⟩ := intact.recv received
          rw [now, Function.update_self]
          exact intact'
    · obtain ⟨same, quiet⟩ := aside other
      rw [same, quiet]
      rw [List.getElem?_set_ne other] at here
      exact kept.running t here running

theorem unroll (kept : Fed i tr c) {j : Nat} {β : Type} {l : CopyLocals}
    {body : CopyLocals → Proc CopyLocals Op Reply (Option β)}
    {exit : CopyLocals → β → TaskProc CopyLocals}
    (pending : c.tasks[j]? = some (.loop l body exit)) :
    Fed i (tr ++ [(c.shared, .unroll j)]) ⟨c.shared, c.tasks.set j (Proc.unroll l body exit)⟩ := by
  have sells : sellsSince i (tr ++ [(c.shared, .unroll j)]) = sellsSince i tr := by
    rw [sellsSince_append, List.append_nil]
  have frames : framesGot i (tr ++ [(c.shared, .unroll j)]) = framesGot i tr := events_unroll
  constructor
  · intro new
    rw [List.length_set] at new
    rw [sells, frames]
    exact kept.unspawned new
  · intro t here running
    rw [sells, frames]
    rcases eq_or_ne j i with rfl | other
    · exact kept.running _ pending rfl
    · rw [List.getElem?_set_ne other] at here
      exact kept.running t here running

theorem quiet (kept : Fed i tr c) (mirror : w.mirror = c.shared.mirror)
    (sells : sellsSince i (tr ++ [(c.shared, .env e)]) = sellsSince i tr) :
    Fed i (tr ++ [(c.shared, .env e)]) ⟨w, c.tasks ++ ts⟩ := by
  have frames : framesGot i (tr ++ [(c.shared, .env e)]) = framesGot i tr := events_env e
  constructor
  · intro new
    rw [List.length_append] at new
    rw [mirror, sells, frames]
    exact kept.unspawned (by omega)
  · intro t here running
    rw [mirror, sells, frames]
    rw [List.getElem?_append] at here
    split_ifs at here with old
    · exact kept.running t here running
    · obtain ⟨empty, none_sent, none_got⟩ := kept.unspawned (not_lt.mp old)
      rw [empty, none_sent, none_got]
      exact ⟨rfl, rfl⟩

theorem fanned (kept : Fed i tr c) (numbered : c.shared.spawned = c.tasks.length) {t : AlphaTrade}
    {pause : Duration} (sell : t.txType = "sell")
    (room : ∀ t, c.tasks[i]? = some t → t.finished = false →
      (c.shared.mirror i).queue.length < sellCapacity)
    (mirror : w.mirror i = if i < c.shared.spawned then
      (c.shared.mirror i).push sellCapacity t else c.shared.mirror i) :
    Fed i (tr ++ [(c.shared, .env (.frame t pause))]) ⟨w, c.tasks⟩ := by
  have frames : framesGot i (tr ++ [(c.shared, .env (.frame t pause))]) = framesGot i tr :=
    events_env _
  have sells : sellsSince i (tr ++ [(c.shared, .env (.frame t pause))]) =
      sellsSince i tr ++ if i < c.shared.spawned then [t] else [] := by
    rw [sellsSince_append]
    simp [sell]
  constructor
  · intro new
    have out : ¬ i < c.shared.spawned := by
      rw [numbered]
      exact not_lt.mpr new
    rw [mirror, sells, frames, if_neg out, if_neg out, List.append_nil]
    exact kept.unspawned new
  · intro u here running
    have inside : i < c.shared.spawned := by
      rw [numbered]
      exact (List.getElem?_eq_some_iff.mp here).1
    rw [mirror, sells, frames, if_pos inside, if_pos inside]
    exact (kept.running u here running).push (room u here running) t

end Fed

theorem fed (run : CopyRun cfg dryRun start (NeverLags i) tr c) : Fed i tr c := by
  apply run.invariant (fun tr c => Fed i tr c)
  · refine ⟨fun _ => ⟨rfl, rfl, rfl⟩, ?_⟩
    intro t here
    cases here
  intro tr c e c' before kept room moved
  have unsold (t : AlphaTrade) (pause : Duration) (other : t.txType ≠ "sell") :
      sellsSince i (tr ++ [(c.shared, .env (.frame t pause))]) = sellsSince i tr := by
    rw [sellsSince_append]
    dsimp only
    rw [if_neg (fun sell => other sell.1), List.append_nil]
  cases moved with
  | perform pending granted =>
      exact kept.perform pending (World.perform_mirror (copyMode_exec granted))
  | unroll pending => exact kept.unroll pending
  | @env e s' ts granted =>
      cases copyMode_moves granted with
      | fanned running sell =>
          rw [List.append_nil]
          exact kept.fanned (copy_spawned before) sell (room sell) rfl
      | skipped running other => exact kept.quiet rfl (unsold _ _ other)
      | @refused t pause running buy gate =>
          obtain ⟨_, _, _, rest⟩ := gateFrame_rest c.shared cfg.copyTrade t pause
          refine kept.quiet (by rw [rest]) (unsold t pause ?_)
          rw [buy]
          decide
      | @entered t pause running buy pumpswap gate =>
          obtain ⟨_, _, _, rest⟩ := gateFrame_rest c.shared cfg.copyTrade t pause
          refine kept.quiet (by rw [rest]) (unsold t pause ?_)
          rw [buy]
          decide
      | background alive moved =>
          rcases World.background_cases moved with ⟨d, rfl, rfl⟩ | ⟨j, x, f, rfl, _, rfl⟩
          · exact kept.quiet rfl (by rw [sellsSince_append, List.append_nil])
          · exact kept.quiet rfl (by rw [sellsSince_append, List.append_nil])
      | _ => exact kept.quiet rfl (by rw [sellsSince_append, List.append_nil])

def mirrorDuty (cfg : Market.Config) (i : Nat) (tr : CopyTrace) : MirrorDuty :=
  ghost (mirrorProtocol cfg) .free i tr

theorem copies_mirror (mirror : cfg.copyTrade.mirrorExit = true)
    (run : CopyRun cfg dryRun start admits tr c) (here : c.tasks[i]? = some t) :
    Proc.wp (mirrorProtocol cfg) t (fun g _ _ => g.settled) (mirrorDuty cfg i tr) := by
  refine copy_protocol (mirrorProtocol cfg) _ .free ?_ ?_ run i t here
  · exact fun alpha => duty_copyHandle alpha mirror
  · intro tr c before i l o r w' granted
    exact World.feed_open granted

theorem mirror_permits (mirror : cfg.copyTrade.mirrorExit = true)
    (run : CopyRun cfg dryRun start admits tr c) {l : CopyLocals} {o : Op}
    {resume : Reply o → TaskProc CopyLocals} (here : c.tasks[i]? = some (.op l o resume)) :
    (mirrorDuty cfg i tr).permits o :=
  (copies_mirror mirror run here).2.1

theorem mirror_settled (mirror : cfg.copyTrade.mirrorExit = true)
    (run : CopyRun cfg dryRun start admits tr c) (here : c.tasks[i]? = some t)
    (finished : t.finished = true) : (mirrorDuty cfg i tr).settled := by
  obtain ⟨_, settled⟩ := Proc.returned_of_finished (copies_mirror mirror run here) finished
  exact settled

/-- What a session has done since it took a close of `mint`, at each of its duties. -/
inductive Mirrored (mint : String) : MirrorDuty → List Op → Prop
  | call : Mirrored mint (.call mint) []
  | sell : Mirrored mint (.sell mint) [.call (.doSell .mirrorAlphaClosed)]
  | done {p : SellAllParams} {rest : List Op} (same : p.mint = mint)
      (left : ∀ o ∈ rest, o.waits = false) :
      Mirrored mint .done (.call (.doSell .mirrorAlphaClosed) :: .sellAll p :: rest)

/-- What a session has done since it took a frame that closes nothing. -/
inductive HeldOn : MirrorDuty → List Op → Prop
  | again : HeldOn .again []
  | waited {g : MirrorDuty} {rest : List Op} : HeldOn g (.copySelect true :: rest)

section Steps

variable {g : MirrorDuty} {l : CopyLocals} {o : Op} {r : Reply o} {mint : String} {done : List Op}

theorem Mirrored.waitless (h : Mirrored mint g done) : ∀ o ∈ done, o.waits = false := by
  intro o mem
  cases h with
  | call => cases mem
  | sell =>
      rw [List.mem_singleton.mp mem]
      rfl
  | done _ left =>
      rcases List.mem_cons.mp mem with rfl | mem
      · rfl
      rcases List.mem_cons.mp mem with rfl | mem
      · rfl
      · exact left o mem

theorem Mirrored.sold (h : Mirrored mint g done) : ∃ p : SellAllParams, p.mint = mint ∧
    done.take 2 <+: [.call (.doSell .mirrorAlphaClosed), .sellAll p] ∧
    (g.settled → [.call (.doSell .mirrorAlphaClosed), .sellAll p] <+: done) := by
  cases h with
  | call =>
      refine ⟨⟨mint, none, 0, 0, 0⟩, rfl, List.nil_prefix, ?_⟩
      rintro (away | away) <;> cases away
  | sell =>
      refine ⟨⟨mint, none, 0, 0, 0⟩, rfl, ⟨_, rfl⟩, ?_⟩
      rintro (away | away) <;> cases away
  | @done p rest same left => exact ⟨p, same, List.prefix_refl _, fun _ => ⟨rest, rfl⟩⟩

theorem HeldOn.waits_first (h : HeldOn g done) : ∀ o ∈ done.head?, o.waits = true := by
  intro o first
  cases h with
  | again => cases first
  | waited =>
      cases first
      rfl

theorem HeldOn.ne_nil (h : HeldOn g done) (settled : g.settled) : done ≠ [] := by
  cases h with
  | again => rcases settled with away | away <;> cases away
  | waited => exact List.cons_ne_nil _ _

theorem Mirrored.next (h : Mirrored mint g done) (permitted : g.permits o) :
    Mirrored mint (g.next cfg l o r) (done ++ [o]) := by
  cases h with
  | call =>
      obtain rfl : o = .call (.doSell .mirrorAlphaClosed) := permitted
      exact .sell
  | sell =>
      obtain ⟨p, rfl, same⟩ := permitted
      exact .done same (List.forall_mem_nil _)
  | done same left =>
      have waitless : o.waits = false := permitted
      rw [settled_idle (.inr rfl) waitless]
      apply Mirrored.done same
      intro o' mem
      rcases List.mem_append.mp mem with old | new
      · exact left o' old
      · rw [List.mem_singleton.mp new]
        exact waitless

theorem HeldOn.next (h : HeldOn g done) (permitted : g.permits o) :
    HeldOn (g.next cfg l o r) (done ++ [o]) := by
  cases h with
  | again =>
      obtain rfl : o = .copySelect true := permitted
      exact .waited
  | waited => exact .waited

end Steps

theorem done_since (mirror : cfg.copyTrade.mirrorExit = true) (x : World × CopyLabel)
    (J : MirrorDuty → List Op → Prop)
    (first : ∀ tr : CopyTrace, J (mirrorDuty cfg i (tr ++ [x])) [])
    (next : ∀ {g done l o r}, J g done → g.permits o → J (g.next cfg l o r) (done ++ [o]))
    (run : CopyRun cfg dryRun start admits tr c) (pre post : CopyTrace)
    (split : tr = pre ++ x :: post) : J (mirrorDuty cfg i tr) (operations i post) := by
  refine run.since (fun post tr _ => J (mirrorDuty cfg i tr) (operations i post)) ?_ ?_ pre x post
    split rfl
  · intro tr c e c' _ _ here
    rw [← here]
    exact first tr
  · intro post tr c e c' before kept moved
    cases moved with
    | @perform j l o resume r s' pending granted =>
        rcases eq_or_ne j i with rfl | other
        · have duty : mirrorDuty cfg j (tr ++ [(c.shared, .perform j l o r)]) =
              (mirrorDuty cfg j tr).next cfg l o r := ghost_perform_self j tr c.shared l o r
          rw [operations, events_self, ← operations, duty]
          exact next kept (mirror_permits mirror before pending)
        · rw [operations, events_other other, mirrorDuty, ghost_perform_other other]
          exact kept
    | unroll pending =>
        rw [operations, events_unroll, mirrorDuty, ghost_unroll]
        exact kept
    | env granted =>
        rw [operations, events_env, mirrorDuty, ghost_env]
        exact kept

section Frames

variable {pre post : CopyTrace} {w : World} {l : CopyLocals} {mirrorOpen : Bool} {sell : AlphaTrade}

theorem mirrored_since (mirror : cfg.copyTrade.mirrorExit = true)
    (run : CopyRun cfg dryRun start admits tr c)
    (split : tr = pre ++ (w, .perform i l (.copySelect mirrorOpen) (.mirror (.got sell))) :: post)
    (closes : ClosesEntry cfg l sell) :
    Mirrored l.alpha.mint (mirrorDuty cfg i tr) (operations i post) := by
  refine done_since mirror _ (Mirrored l.alpha.mint) ?_ Mirrored.next run pre post split
  intro tr
  have duty : mirrorDuty cfg i (tr ++ [(w, .perform i l (.copySelect mirrorOpen)
      (.mirror (.got sell)))]) = .call l.alpha.mint := by
    rw [mirrorDuty, ghost_perform_self]
    exact if_pos closes
  rw [duty]
  exact .call

theorem held_on_since (mirror : cfg.copyTrade.mirrorExit = true)
    (run : CopyRun cfg dryRun start admits tr c)
    (split : tr = pre ++ (w, .perform i l (.copySelect mirrorOpen) (.mirror (.got sell))) :: post)
    (stays : ¬ ClosesEntry cfg l sell) : HeldOn (mirrorDuty cfg i tr) (operations i post) := by
  refine done_since mirror _ HeldOn ?_ HeldOn.next run pre post split
  intro tr
  have duty : mirrorDuty cfg i (tr ++ [(w, .perform i l (.copySelect mirrorOpen)
      (.mirror (.got sell)))]) = .again := by
    rw [mirrorDuty, ghost_perform_self]
    exact if_neg stays
  rw [duty]
  exact .again

theorem mirror_listens (mirror : cfg.copyTrade.mirrorExit = true)
    (run : CopyRun cfg dryRun start admits tr c) {resume : CopyEvent → TaskProc CopyLocals}
    (here : c.tasks[i]? = some (.op l (.copySelect mirrorOpen) resume)) : mirrorOpen = true := by
  have permitted := mirror_permits mirror run here
  cases duty : mirrorDuty cfg i tr with
  | free =>
      rw [duty] at permitted
      exact permitted mirrorOpen rfl
  | again =>
      rw [duty] at permitted
      exact Op.copySelect.inj permitted
  | call mint => rw [duty] at permitted; cases permitted
  | sell mint =>
      rw [duty] at permitted
      obtain ⟨p, waits, _⟩ := permitted
      cases waits
  | done => rw [duty] at permitted; cases permitted

end Frames

/-- Session `i` and the feed of sells. -/
structure MirrorKept (cfg : Market.Config) (dryRun : Bool) (i : Nat) (tr : CopyTrace)
    (c : CopyConfig) : Prop where
  /-- While the session runs, the frames that it took and those that wait for it are all the sells
  that `main` received since it spawned the session, each once and in order. -/
  delivered : ∀ t, c.tasks[i]? = some t → t.finished = false → (c.shared.mirror i).lost = 0 ∧
    framesGot i tr ++ (c.shared.mirror i).queue = sellsSince i tr
  /-- Whenever it waits, it listens to the feed. -/
  listening : ∀ (l : CopyLocals) mirrorOpen resume,
    c.tasks[i]? = some (.op l (.copySelect mirrorOpen) resume) → mirrorOpen = true
  /-- A price tick is taken only when no frame waits. -/
  frames_first : ∀ l mirrorOpen sample c',
    Step (copyMode cfg dryRun) c (.perform i l (.copySelect mirrorOpen) (.tick sample)) c' →
      (c.shared.mirror i).queue = []
  /-- Once it took a close by the followed wallet it calls `do_sell` for the mirror exit, attempts
  the sell of its mint and never waits again. -/
  closed_out : ∀ pre w (l : CopyLocals) mirrorOpen sell post,
    tr = pre ++ (w, .perform i l (.copySelect mirrorOpen) (.mirror (.got sell))) :: post →
    ClosesEntry cfg l sell → (∀ o ∈ operations i post, o.waits = false) ∧
      ∃ p : SellAllParams, p.mint = l.alpha.mint ∧
        (operations i post).take 2 <+: [.call (.doSell .mirrorAlphaClosed), .sellAll p] ∧
        ∀ t, c.tasks[i]? = some t → t.finished = true →
          [.call (.doSell .mirrorAlphaClosed), .sellAll p] <+: operations i post
  /-- Any other frame leaves it in the loop: it waits again before it does anything else. -/
  held_on : ∀ pre w (l : CopyLocals) mirrorOpen sell post,
    tr = pre ++ (w, .perform i l (.copySelect mirrorOpen) (.mirror (.got sell))) :: post →
    ¬ ClosesEntry cfg l sell → (∀ o ∈ (operations i post).head?, o.waits = true) ∧
      ∀ t, c.tasks[i]? = some t → t.finished = true → operations i post ≠ []

end Runs

theorem mirror_kept (cfg : Market.Config) (mirror : cfg.copyTrade.mirrorExit = true)
    (dryRun : Bool) (start : Instant) (i : Nat) (tr : CopyTrace) (c : CopyConfig)
    (run : CopyRun cfg dryRun start (NeverLags i) tr c) : MirrorKept cfg dryRun i tr c := by
  constructor
  case delivered =>
    intro t here running
    have fed := (fed run).running t here running
    exact ⟨fed.lost, fed.order⟩
  case listening =>
    intro l mirrorOpen resume here
    exact mirror_listens mirror run here
  case frames_first =>
    intro l mirrorOpen sample c' moved
    cases moved with
    | perform pending granted =>
        obtain rfl : mirrorOpen = true := mirror_listens mirror run pending
        exact World.tick_after_frames (copyMode_exec granted)
  case closed_out =>
    intro pre w l mirrorOpen sell post split closes
    have mirrored := mirrored_since mirror run split closes
    obtain ⟨p, same, first, sold⟩ := mirrored.sold
    exact ⟨mirrored.waitless, p, same, first,
      fun t here finished => sold (mirror_settled mirror run here finished)⟩
  case held_on =>
    intro pre w l mirrorOpen sell post split stays
    have held := held_on_since mirror run split stays
    exact ⟨held.waits_first,
      fun t here finished => held.ne_nil (mirror_settled mirror run here finished)⟩

theorem mirror_kept_closed : ∃ tr c, framesGot 0 tr = [alphaTrade someMint "alpha" "sell"] ∧
    c.tasks.all Proc.finished = true ∧
    MirrorKept eager false 0 tr c := by
  obtain ⟨tr, c, run, seen⟩ := System.drive_reaches (copyMode eager false) (NeverLags 0)
    (fun _ c _ => (c.shared.mirror 0).queue.length < sellCapacity) (by
      intro tr c e room
      cases e with
      | env e =>
          cases e with
          | frame t pause =>
              intro _ _ _ _
              exact of_decide_eq_true room
          | _ => trivial
      | _ => trivial)
    (copyStart eager 0)
    (copyEntry 0 "alpha" ++ [.env (.frame (alphaTrade someMint "alpha" "sell") 0)] ++
      go readyNet 0 7)
    (fun tr c => framesGot 0 tr = [alphaTrade someMint "alpha" "sell"] ∧
      c.tasks.all Proc.finished = true) (by decide +kernel)
  obtain ⟨got, finished⟩ := of_decide_eq_true seen
  exact ⟨tr, c, got, finished, mirror_kept eager rfl false 0 0 tr c run⟩

end HadesPsTrader.Tasks
