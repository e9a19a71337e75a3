/- Module: HadesPsTrader/Runs/HoldCap
   source: src/session.rs, src/position.rs, src/price_feed.rs
   digest: When a session keeps the cap on the holding time of its position. -/

import HadesPsTrader.Runs.FreshPrices

set_option autoImplicit false
set_option relaxedAutoImplicit false

namespace HadesPsTrader.Tasks

open HadesPsTrader.Market HadesPsTrader.Chain HadesPsTrader.Interaction

/-- A sell was tried since the cap of the purchase `x` was reached. -/
def triedSince (cfg : Market.Config) (g : SessionDiary) (x : Instant × EntryTrigger) : Prop :=
  ∃ attempt, g.attempt = some attempt ∧ x.1 + fromSecs (maxHold x.2 cfg) ≤ attempt

/-- No session waits at its select, with nothing there to answer it, on a position past its cap for
which no sell was tried since the cap was reached. -/
def NeverWaitsOverdue (cfg : Market.Config) (dryRun : Bool) (tr : GradTrace) (c : GradConfig) :
    Prop :=
  ∀ i l resume pos, c.tasks[i]? = some (.op l .select resume) → l.position = some pos →
    (c.shared.feeds i).ready = false →
    overdue cfg (pos.boughtAt, pos.entryTrigger) c.shared.clock = true →
    triedSince cfg (diary cfg dryRun i tr) (pos.boughtAt, pos.entryTrigger)

def passing : GradLabel → Option Duration
  | .env (.advance d) => some d
  | _ => none

/-- When a purchase reaches its cap, the select of its session is ready (a price is queued, the
deadline has fired, or the price channel is closed), or the session is about to read the age of the
position on the price that it has just taken. -/
def WatchedCaps (cfg : Market.Config) (dryRun : Bool) : GradAdmit := fun tr c e =>
  ∀ d ∈ passing e, ∀ i < c.tasks.length, ∀ x ∈ c.tasks[i]?.bind (fun t => t.locals.purchase),
    overdue cfg x c.shared.clock = false → overdue cfg x (c.shared.clock + d) = true →
      (c.shared.feeds i).ready = true ∨ (diary cfg dryRun i tr).pressing = true

instance (cfg : Market.Config) (dryRun : Bool) (tr : GradTrace) (c : GradConfig) (e : GradLabel) :
    Decidable (WatchedCaps cfg dryRun tr c e) :=
  inferInstanceAs (Decidable (∀ d ∈ passing e, ∀ i < c.tasks.length,
    ∀ x ∈ c.tasks[i]?.bind (fun t => t.locals.purchase),
      overdue cfg x c.shared.clock = false → overdue cfg x (c.shared.clock + d) = true →
        (c.shared.feeds i).ready = true ∨ (diary cfg dryRun i tr).pressing = true))

def Op.isSpawnPricePoll : Op → Bool
  | .spawnPricePoll _ => true
  | _ => false

def waiting : TaskProc SessionLocals → Option SessionLocals
  | .op l .select _ => some l
  | _ => none

theorem waiting_eq_some {t : TaskProc SessionLocals} {l : SessionLocals}
    (h : waiting t = some l) : ∃ resume, t = .op l .select resume := by
  unfold waiting at h
  split at h
  · cases h
    exact ⟨_, rfl⟩
  · cases h

section Diary

variable {cfg : Market.Config} {dryRun : Bool} {g : SessionDiary} {w w' : World}
  {l : SessionLocals} {i : Nat} {o : Op} {r : Reply o}

variable (dryRun) in
theorem overdue_step (permitted : Permits cfg g l o) (coherent : Coherent g l)
    (granted : w.perform i o r = some w') {x : Instant × EntryTrigger}
    (since : (g.next cfg dryRun w l o r).since = some x) (late : overdue cfg x w.clock = true) :
    triedSince cfg (g.next cfg dryRun w l o r) x ∨
    (g.next cfg dryRun w l o r).pressing = true ∨
    (g.since = some x ∧ (g.next cfg dryRun w l o r).attempt = g.attempt ∧
      (g.next cfg dryRun w l o r).pressing = g.pressing ∧
      (w'.feeds i).ready = (w.feeds i).ready) := by
  have reached : x.1 + fromSecs (maxHold x.2 cfg) ≤ w.clock := by
    simp only [overdue, Bool.and_eq_true, decide_eq_true_eq] at late
    exact late.2
  -- a feed that is only timed, or not touched, answers as before
  have still (receives : o.receives = false) (polls : o.isSpawnPricePoll = false) :
      (w'.feeds i).ready = (w.feeds i).ready := by
    cases (World.perform_feeds granted).1 with
    | kept now => rw [now]
    | received _ _ receives' _ _ => rw [receives] at receives'; cases receives'
    | polled mint op _ =>
        rw [op] at polls
        cases polls
    | timed deadline now => rw [now]; rfl
  cases o with
  | call c =>
      cases c with
      | trySell reason => exact .inl ⟨w.clock, rfl, reached⟩
      | _ => exact .inr (.inr ⟨since, rfl, rfl, still rfl rfl⟩)
  | now site =>
      cases site with
      | boughtAt =>
          obtain ⟨rfl, _⟩ := World.perform_now.mp granted
          obtain ⟨f, buying⟩ := Option.isSome_iff_exists.mp permitted.1
          simp only [SessionDiary.next_eq, SessionDiary.stamp_since, SessionDiary.entry, buying,
            Option.map_some, Option.some.injEq] at since
          subst since
          simp only [overdue, Bool.and_eq_true, decide_eq_true_eq] at late
          have positive : 0 < fromSecs (maxHold f.trigger cfg) := Nat.mul_pos late.1 (by decide)
          exact absurd reached (not_le.mpr (Nat.lt_add_of_pos_right positive))
      | exitAge =>
          obtain ⟨rfl, _⟩ := World.perform_now.mp granted
          have since : g.since = some x := since
          exact .inr (.inl (by simp [SessionDiary.entry, since, late]))
      | _ => exact .inr (.inr ⟨since, rfl, rfl, still rfl rfl⟩)
  | fetchSub => cases since
  | select =>
      have purchase : l.purchase = some x := coherent.since.symm.trans since
      have opened : l.position.isSome = true := by
        cases position : l.position with
        | some pos => rfl
        | none => simp [SessionLocals.purchase, position, permitted.2.1, permitted.2.2] at purchase
      exact .inr (.inl opened)
  | spawnPricePoll mint =>
      have purchase : l.purchase = some x := coherent.since.symm.trans since
      simp [SessionLocals.purchase, permitted.1, permitted.2.1, permitted.2.2] at purchase
  | copySelect mirrorOpen => exact permitted.elim
  | recv => exact permitted.elim
  | notify n => cases n <;> exact .inr (.inr ⟨since, rfl, rfl, still rfl rfl⟩)
  | spendCheck now amountSol => cases r <;> exact .inr (.inr ⟨since, rfl, rfl, still rfl rfl⟩)
  | _ => exact .inr (.inr ⟨since, rfl, rfl, still rfl rfl⟩)

end Diary

section Runs

variable {cfg : Market.Config} {dryRun : Bool} {start : Instant} {tr : GradTrace} {c : GradConfig}

/-- An overdue purchase was tried to be sold, or its session is ready or about to look at it. -/
theorem overdue_watched (run : GradRun cfg dryRun start (WatchedCaps cfg dryRun) tr c) (i : Nat) :
    ∀ x, (diary cfg dryRun i tr).since = some x → overdue cfg x c.shared.clock = true →
      triedSince cfg (diary cfg dryRun i tr) x ∨ (diary cfg dryRun i tr).pressing = true ∨
        (c.shared.feeds i).ready = true := by
  apply run.invariant (fun tr c => ∀ x, (diary cfg dryRun i tr).since = some x →
    overdue cfg x c.shared.clock = true → triedSince cfg (diary cfg dryRun i tr) x ∨
      (diary cfg dryRun i tr).pressing = true ∨ (c.shared.feeds i).ready = true)
  · intro x since
    cases since
  intro tr c e c' before ih admitted moved
  cases moved with
  | @perform j l o resume r s' pending granted =>
      have granted : c.shared.perform j o r = some s' := granted
      have clock := (World.perform_clock granted).1
      rcases eq_or_ne j i with rfl | other
      · rw [diary_self]
        intro x since late
        rw [clock] at late
        rcases overdue_step dryRun (session_permits before pending)
          (session_stands before pending) granted since late with
          tried | pressing | ⟨since, attempt, pressing, ready⟩
        · exact .inl tried
        · exact .inr (.inl pressing)
        · rw [triedSince, attempt, pressing, ready]
          exact ih x since late
      · rw [diary_other other, clock, (World.perform_feeds granted).2 i (Ne.symm other)]
        exact ih
  | unroll pending => rwa [diary_unroll]
  | @env e s' ts granted =>
      rw [diary_env]
      intro x since late
      rcases graduation_env_cases granted with ⟨_, _, rfl, _⟩ | ⟨moved, _⟩
      · exact ih x since late
      · rcases World.background_cases moved with ⟨d, rfl, rfl⟩ | ⟨j, y, f, _, step, rfl⟩
        · cases already : overdue cfg x c.shared.clock with
          | true => exact ih x since already
          | false =>
              -- the cap is reached in this step
              have spawned : i < c.tasks.length := by
                by_contra new
                rw [diary, Run.ghost_unspawned _ _ before i (not_lt.mp new)] at since
                cases since
              have there := List.getElem?_eq_getElem spawned
              have bought : x ∈ c.tasks[i]?.bind (fun t => t.locals.purchase) := by
                rw [there, Option.bind_some, ← (session_coherent before there).since]
                exact since
              exact .inr (admitted d rfl i spawned x bought already late).symm
        · rcases ih x since late with tried | pressing | ready
          · exact .inl tried
          · exact .inr (.inl pressing)
          · refine .inr (.inr ?_)
            rcases eq_or_ne i j with rfl | other
            · rw [World.setFeed_self]
              exact Feed.step_ready step ready
            · rwa [World.setFeed_other other]

theorem never_waits_overdue (cfg : Market.Config) (dryRun : Bool) (start : Instant)
    (tr : GradTrace) (c : GradConfig)
    (run : GradRun cfg dryRun start (WatchedCaps cfg dryRun) tr c) :
    NeverWaitsOverdue cfg dryRun tr c := by
  intro i l resume pos here position waiting late
  have purchase : (diary cfg dryRun i tr).since = some (pos.boughtAt, pos.entryTrigger) := by
    rw [(session_stands run here).since]
    simp [SessionLocals.purchase, position]
  have looked : (diary cfg dryRun i tr).pressing = false := (session_permits run here).1
  rcases overdue_watched run i _ purchase late with tried | pressing | ready
  · exact tried
  · rw [looked] at pressing
    cases pressing
  · rw [waiting] at ready
    cases ready

end Runs

theorem never_waits_overdue_queued_price : ∃ tr c,
    (diary eager false 0 tr).attempt = some (fromSecs 60) ∧
    NeverWaitsOverdue eager false tr c := by
  obtain ⟨tr, c, run, tried⟩ := System.drive_reaches (graduation eager false)
    (WatchedCaps eager false) (fun tr c e => WatchedCaps eager false tr c e)
    (fun _ _ _ => of_decide_eq_true) (graduationStart eager 0)
    (warmUp 0 ++ buyTick readyNet 0 9 ++ price 0 1 10 ++ [.env (.advance (fromSecs 60))] ++
      go readyNet 0 4)
    (fun tr _ => (diary eager false 0 tr).attempt = some (fromSecs 60)) (by decide +kernel)
  exact ⟨tr, c, of_decide_eq_true tried, never_waits_overdue eager false 0 tr c run⟩

/-- The poller sends nothing any more, and the session waits for it past the cap. -/
theorem silent_poller_outlasts_cap : ∃ tr c, GradRun eager false 0 always tr c ∧
    ¬ NeverWaitsOverdue eager false tr c := by
  obtain ⟨tr, c, run, waits⟩ := System.script_reaches (graduation eager false)
    (graduationStart eager 0)
    (warmUp 0 ++ buyTick readyNet 0 9 ++ go readyNet 0 1 ++ [.env (.advance (fromSecs 60))])
    (fun tr c => c.tasks.length = 1 ∧ (c.shared.feeds 0).ready = false ∧
      (diary eager false 0 tr).attempt = none ∧
      (c.tasks.head?.bind waiting).any fun l => ∃ pos ∈ l.position,
        overdue eager (pos.boughtAt, pos.entryTrigger) c.shared.clock = true) (by decide +kernel)
  obtain ⟨single, unready, untried, stuck⟩ := of_decide_eq_true waits
  refine ⟨tr, c, run, fun watched => ?_⟩
  obtain ⟨t, tasks⟩ := List.length_eq_one_iff.mp single
  obtain ⟨l, here, stuck⟩ := (Option.any_eq_true _ _).mp stuck
  obtain ⟨pos, position, late⟩ := of_decide_eq_true stuck
  obtain ⟨resume, rfl⟩ := waiting_eq_some (by simpa [tasks] using here)
  obtain ⟨attempt, tried, _⟩ := watched 0 l resume pos (by simp [tasks]) position unready late
  rw [untried] at tried
  cases tried

end HadesPsTrader.Tasks
