/- Module: HadesPsTrader/Runs/OnePoll
   source: src/session.rs, src/price_feed.rs
   digest: A session spawns one price poll, and receives prices from then on only. -/

import HadesPsTrader.Interaction.Refinement
import HadesPsTrader.Runs.Graduation
import HadesPsTrader.Runs.SessionPieces
import HadesPsTrader.Runs.SessionWalk

set_option autoImplicit false
set_option relaxedAutoImplicit false

namespace HadesPsTrader.Tasks

open HadesPsTrader.Market HadesPsTrader.Chain HadesPsTrader.Interaction

def Op.spawnsPoll : Op → Bool
  | .spawnPricePoll _ => true
  | _ => false

def sampleOf : (o : Op) → Reply o → Option Sample
  | .select, .tick x => x
  | _, _ => none

def receivedTicks (i : Nat) (ops : List (Nat × Sigma Reply)) : List Sample :=
  ops.filterMap fun x => if x.1 = i then sampleOf x.2.1 x.2.2 else none

theorem receivedTicks_append {i j : Nat} {ops : List (Nat × Sigma Reply)} {o : Op} {r : Reply o} :
    receivedTicks i (ops ++ [(j, ⟨o, r⟩)]) =
      receivedTicks i ops ++ if j = i then (sampleOf o r).toList else [] := by
  rw [receivedTicks, List.filterMap_append]
  congr 1
  split_ifs with own
  · cases h : sampleOf o r <;> simp [own, h]
  · simp [own]

/-- The ghost of a session says whether it has spawned its poll. -/
def pollOnce : Protocol Bool World SessionLocals Op Reply where
  coherent _ _ := True
  guard polled _ o := (o.spawnsPoll = true → polled = false) ∧ (o.receives = true → polled = true)
  valid _ _ _ _ _ := True
  next polled _ _ o _ := polled || o.spawnsPoll

section Walk

variable {cfg : Market.Config} {dryRun : Bool} {mint : Pubkey} {l : SessionLocals} {α : Type}

theorem once_step {polled : Bool} {o : Op} {f : Reply o → SessionM α}
    {Q : Bool → SessionLocals → α → Prop} (spawns : o.spawnsPoll = false)
    (receives : o.receives = false) (rest : ∀ r, Async.wp pollOnce (f r) Q polled l) :
    Async.wp pollOnce (Async.perform o >>= f) Q polled l := by
  refine Async.wp_step trivial ?_ ?_
  · constructor
    · intro spawn
      rw [spawns] at spawn
      cases spawn
    · intro receive
      rw [receives] at receive
      cases receive
  intro w r _
  have next : pollOnce.next polled w l o r = polled := by
    change (polled || o.spawnsPoll) = polled
    rw [spawns, Bool.or_false]
  rw [next]
  exact rest r

theorem polled_keeps {o : Op} (spawns : o.spawnsPoll = false) :
    Async.Keeps pollOnce (fun polled _ => polled = true) (Async.perform o : SessionM (Reply o)) := by
  apply Async.Keeps.perform
  · exact fun _ _ _ => trivial
  · intro polled l here
    refine ⟨?_, fun _ => here⟩
    intro spawn
    rw [spawns] at spawn
    cases spawn
  · intro polled w l r here _
    change (polled || o.spawnsPoll) = true
    rw [here, Bool.true_or]

theorem calm_keeps {m : SessionM α} (calm : Async.Steady World
    (fun o => o.spawnsPoll = false ∧ o.receives = false) (fun _ => True) m) :
    Async.Keeps pollOnce (fun polled _ => polled = true) m := by
  intro polled l here
  apply calm.wp trivial
  · exact fun _ _ => trivial
  · intro l' o _ asked
    refine ⟨?_, fun _ => here⟩
    intro spawn
    rw [asked.1] at spawn
    cases spawn
  · intro w l' o r asked
    change (polled || o.spawnsPoll) = polled
    rw [asked.1, Bool.or_false]
  · exact fun _ _ _ => here

theorem calm_of_isTrading (o : Op) (trading : o.isTrading = true) :
    o.spawnsPoll = false ∧ o.receives = false := by
  cases o with
  | spawnPricePoll mint => cases trading
  | select => cases trading
  | copySelect mirrorOpen => cases trading
  | recv => cases trading
  | _ => exact ⟨rfl, rfl⟩

theorem polled_sellForGood {pct : Position → ℚ} {reason : SellReason} :
    Async.Keeps pollOnce (fun polled _ => polled = true) (sellForGood cfg dryRun pct reason) :=
  calm_keeps (sellForGood_steady
    (fun o unwinding _ => calm_of_isTrading o (isTrading_of_isUnwinding o unwinding))
    (fun _ _ _ here => here) ⟨rfl, rfl⟩)

theorem polled_onTick {u : PriceUpdate} :
    Async.Keeps pollOnce (fun polled _ => polled = true) (onTick cfg dryRun mint u) := by
  apply onTick_keeps
  · exact fun _ _ _ _ here => here
  · intro now trigger
    apply calm_keeps
    exact gatedEntry_steady (fun o trading _ => calm_of_isTrading o trading)
      (fun _ _ _ here => here) ⟨rfl, rfl⟩
  · exact fun _ _ _ _ here => here
  · exact fun _ _ => polled_sellForGood
  · intro price
    apply calm_keeps
    exact pnlExit_steady
      (fun o unwinding _ => calm_of_isTrading o (isTrading_of_isUnwinding o unwinding))
      (fun _ _ _ here => here)
  · exact polled_keeps rfl

theorem once_runSession : Async.wp pollOnce (runSession cfg dryRun mint) (fun _ _ _ => True) false
    l := by
  have rest (price : SessionLocals → Position → ℚ) : Async.Keeps pollOnce
      (fun polled _ => polled = true) (do
        Async.loop (sessionRound cfg dryRun mint)
        let l ← Async.locals
        sellForGood cfg dryRun (price l) .forcedExit) := by
    apply Async.Keeps.bind
    · apply Async.Keeps.loop
      · exact fun _ _ _ => trivial
      · exact sessionRound_keeps (polled_keeps rfl) fun _ => polled_onTick
    intro _
    apply Async.Keeps.bind
    · exact .locals
    intro l
    exact polled_sellForGood
  rw [runSession]
  apply once_step rfl rfl
  intro sessionStart
  rw [Async.wp_locals_bind]
  refine Async.wp_step trivial ⟨fun _ => rfl, nofun⟩ ?_
  intro w _ _
  rw [Async.wp_assign_bind]
  apply once_step rfl rfl
  intro _
  exact Async.wp_mono _ (rest _ true _ rfl) fun _ _ _ _ => trivial

theorem once_ahead {o : Op} (spawns : o.spawnsPoll = false) (receives : o.receives = false) :
    Async.Keeps pollOnce (fun polled _ => polled = false)
      (Async.perform o : SessionM (Reply o)) :=
  fun _ _ here => once_step spawns receives fun _ => here

theorem once_sessionTask :
    Async.wp pollOnce (sessionTask cfg dryRun) (fun _ _ _ => True) false l := by
  apply sessionTask_wp (fun _ => once_ahead rfl rfl) (fun _ _ _ => trivial) ?_
    (fun _ => once_ahead rfl rfl) (fun _ _ _ _ here => here) rfl
  rintro mint polled l _ rfl
  exact once_runSession

end Walk

/-- The feed of a session without a poll. -/
structure Feed.Unpolled (f : Feed) : Prop where
  poller : f.poller = .ended
  inHand : f.inHand = none
  queue : f.queue = []

theorem Feed.Unpolled.step {f f' : Feed} {clock : Instant} {x : FeedStep} (unpolled : f.Unpolled)
    (taken : f.step clock x = some f') : f'.Unpolled := by
  obtain ⟨poller, inHand, queue⟩ := unpolled
  cases x with
  | discovered => simp [Feed.step, poller] at taken
  | gaveUp => simp [Feed.step, poller] at taken
  | sample u => simp [Feed.step, poller] at taken
  | send => simp [Feed.step, inHand] at taken
  | fire =>
      rw [Feed.step] at taken
      split at taken
      · cases taken
      · split_ifs at taken
        cases taken
        exact ⟨poller, inHand, queue⟩

section Runs

variable {cfg : Market.Config} {dryRun : Bool} {start : Instant} {admits : GradAdmit}
  {tr : GradTrace} {c : GradConfig}

theorem once_of_run (run : GradRun cfg dryRun start admits tr c) {i : Nat}
    {t : TaskProc SessionLocals} (here : c.tasks[i]? = some t) :
    Proc.wp pollOnce t (fun _ _ _ => True) (ghost pollOnce false i tr) := by
  refine graduation_protocol pollOnce _ false ?_ ?_ run i t here
  · exact fun _ _ => once_sessionTask
  · exact fun _ _ _ _ _ _ _ => trivial

theorem unpolled_of_run (run : GradRun cfg dryRun start admits tr c) (i : Nat) :
    ghost pollOnce false i tr = false →
      (c.shared.feeds i).Unpolled ∧ receivedTicks i (exchanges tr) = [] := by
  apply run.invariant fun tr c => ghost pollOnce false i tr = false →
    (c.shared.feeds i).Unpolled ∧ receivedTicks i (exchanges tr) = []
  · exact fun _ => ⟨⟨rfl, rfl, rfl⟩, rfl⟩
  intro tr c e c' before ih _ moved
  cases moved with
  | @perform j l o resume r w' pending granted =>
      have granted : c.shared.perform j o r = some w' := granted
      obtain ⟨own, others⟩ := World.perform_feeds granted
      rw [exchanges_perform, receivedTicks_append, ghost_perform]
      split_ifs with same
      · subst same
        intro still
        obtain ⟨unspawned, spawns⟩ := Bool.or_eq_false_iff.mp still
        obtain ⟨⟨poller, inHand, queue⟩, nothing⟩ := ih unspawned
        have guarded := (once_of_run before pending).2.1.2
        have waits : o.receives = false := by
          cases receives : o.receives with
          | false => rfl
          | true =>
              rw [guarded receives] at unspawned
              cases unspawned
        constructor
        · cases own with
          | kept now =>
              rw [now]
              exact ⟨poller, inHand, queue⟩
          | received s rest receives queued now =>
              rw [waits] at receives
              cases receives
          | polled mint op now =>
              rw [op] at spawns
              cases spawns
          | timed deadline now =>
              rw [now]
              exact ⟨poller, inHand, queue⟩
        · rw [nothing, List.nil_append]
          cases o with
          | select => cases waits
          | _ => rfl
      · intro still
        rw [others i (Ne.symm same), List.append_nil]
        exact ih still
  | unroll pending =>
      rw [exchanges_unroll, ghost_unroll]
      exact ih
  | env granted =>
      rw [exchanges_env, ghost_env]
      intro still
      obtain ⟨unpolled, nothing⟩ := ih still
      refine ⟨?_, nothing⟩
      rcases graduation_env_cases granted with ⟨ev, _, rfl, _⟩ | ⟨moved, _⟩
      · exact unpolled
      rcases World.background_cases moved with ⟨d, _, rfl⟩ | ⟨j, x, f, _, taken, rfl⟩
      · exact unpolled
      by_cases same : i = j
      · subst same
        rw [World.setFeed_self]
        exact unpolled.step taken
      · rw [World.setFeed_other same]
        exact unpolled

theorem unpolled_at_spawn (run : GradRun cfg dryRun start admits tr c) {i : Nat}
    {l : SessionLocals} {mint : String} {resume : Unit → TaskProc SessionLocals}
    (pending : c.tasks[i]? = some (.op l (.spawnPricePoll mint) resume)) :
    (c.shared.feeds i).Unpolled ∧ receivedTicks i (exchanges tr) = [] :=
  unpolled_of_run run i ((once_of_run run pending).2.1.1 rfl)

end Runs

end HadesPsTrader.Tasks
