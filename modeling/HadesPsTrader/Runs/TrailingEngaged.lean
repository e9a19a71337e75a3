/- Module: HadesPsTrader/Runs/TrailingEngaged
   source: src/main.rs, src/session.rs, src/position.rs
   digest: When a take-profit below the lowest trailing tier keeps the trailing stop out. -/

import HadesPsTrader.Market.StartupChecks
import HadesPsTrader.Runs.HoldingPeriod

set_option autoImplicit false
set_option relaxedAutoImplicit false

namespace HadesPsTrader.Tasks

open HadesPsTrader.Market HadesPsTrader.Chain HadesPsTrader.Interaction

section Runs

variable {cfg : Market.Config} {dryRun : Bool} {start : Instant} {admits : GradAdmit}
  {tr : GradTrace} {c : GradConfig} {i : Nat}

/-- The ticks of a holding period are in the order of their ages, none of them in the future. -/
structure HoldNotes.Timed (g : HoldNotes) (now : Instant) : Prop where
  ordered : g.holding.ticks.Pairwise fun a b => a.2 ≤ b.2
  past : ∀ x ∈ g.holding.ticks, x.2 ≤ now

theorem HoldNotes.Timed.later {g g' : HoldNotes} {now now' : Instant} (timed : g.Timed now)
    (later : now ≤ now') (same : g'.holding.ticks = g.holding.ticks) : g'.Timed now' := by
  constructor
  · rw [same]
    exact timed.ordered
  · rw [same]
    exact fun x mem => (timed.past x mem).trans later

theorem HoldNotes.Timed.next {g : HoldNotes} {w w' : World} {l : SessionLocals} {o : Op}
    {r : Reply o} (timed : g.Timed w.clock) (granted : w.perform i o r = some w') :
    (g.next cfg dryRun l o r).Timed w'.clock := by
  rw [(World.perform_clock granted).1]
  cases o with
  | now site =>
      obtain ⟨rfl, _⟩ := World.perform_now.mp granted
      cases site with
      | boughtAt => exact ⟨.nil, nofun⟩
      | exitAge =>
          constructor
          · refine List.pairwise_append.mpr ⟨timed.ordered, List.pairwise_singleton _ _, ?_⟩
            intro x mem y last
            cases List.mem_singleton.mp last
            exact timed.past x mem
          · intro x mem
            rcases List.mem_append.mp mem with old | last
            · exact timed.past x old
            · cases List.mem_singleton.mp last
              exact le_rfl
      | _ => exact timed.later le_rfl rfl
  | select =>
      apply timed.later le_rfl
      match r with
      | .deadline => rfl
      | .tick none => rfl
      | .tick (some sample) => rfl
  | notify n =>
      cases n with
      | _ => exact timed.later le_rfl rfl
  | call c =>
      cases c with
      | _ => exact timed.later le_rfl rfl
  | sellAll p =>
      apply timed.later le_rfl
      rw [(@HoldNotes.next_sellAll cfg dryRun g l p r).1]
  | _ => exact timed.later le_rfl rfl

theorem holdNotes_timed (run : GradRun cfg dryRun start admits tr c) (i : Nat) :
    (holdNotes cfg dryRun i tr).Timed c.shared.clock := by
  apply run.watched (holdProtocol cfg dryRun) {} i fun g w => g.Timed w.clock
  · exact ⟨.nil, nofun⟩
  · intro g w w' l o r timed granted
    have granted : w.perform i o r = some w' := granted
    exact timed.next granted
  · intro g c e c' timed moved
    exact timed.later (step_clock moved) rfl

theorem HoldNotes.failed_of_next {g : HoldNotes} {l : SessionLocals} {o : Op} {r : Reply o}
    {reason : ExitReason} (other : ∀ p, o ≠ .sellAll p)
    (failed : reason ∈ (g.next cfg dryRun l o r).failed) :
    reason ∈ g.failed ∧ (g.next cfg dryRun l o r).holding.trigger = g.holding.trigger := by
  cases o with
  | sellAll p => exact absurd rfl (other p)
  | now site =>
      cases site with
      | boughtAt => cases failed
      | _ => exact ⟨failed, rfl⟩
  | select =>
      match r with
      | .deadline => exact ⟨failed, rfl⟩
      | .tick none => exact ⟨failed, rfl⟩
      | .tick (some sample) => exact ⟨failed, rfl⟩
  | notify n => cases n with | _ => exact ⟨failed, rfl⟩
  | call c => cases c with | _ => exact ⟨failed, rfl⟩
  | _ => exact ⟨failed, rfl⟩

/-- The sell of an exit has failed in a holding period of this trigger. -/
def SellFailed (cfg : Market.Config) (dryRun : Bool) (i : Nat) (tr : GradTrace)
    (reason : ExitReason) (trigger : EntryTrigger) : Prop :=
  ∃ pre w l p answers post, tr = pre ++ (w, .perform i l (.sellAll p) answers) :: post ∧
    soldOk cfg dryRun p answers = false ∧ (holdNotes cfg dryRun i pre).asked = some reason ∧
    (holdNotes cfg dryRun i pre).holding.trigger = trigger

theorem SellFailed.later {reason : ExitReason} {trigger : EntryTrigger}
    (failed : SellFailed cfg dryRun i tr reason trigger) (x : World × GradLabel) :
    SellFailed cfg dryRun i (tr ++ [x]) reason trigger := by
  obtain ⟨pre, w, l, p, answers, post, rfl, unsold, asked, period⟩ := failed
  refine ⟨pre, w, l, p, answers, post ++ [x], ?_, unsold, asked, period⟩
  rw [List.append_assoc, List.cons_append]

theorem failed_traced {reason : ExitReason}
    (failed : reason ∈ (holdNotes cfg dryRun i tr).failed) :
    SellFailed cfg dryRun i tr reason (holdNotes cfg dryRun i tr).holding.trigger := by
  induction tr using List.reverseRecOn with
  | nil => cases failed
  | append_singleton tr x ih =>
      obtain ⟨w, e⟩ := x
      by_cases own : ∃ l o r, e = .perform i l o r
      · obtain ⟨l, o, r, rfl⟩ := own
        have noted : holdNotes cfg dryRun i (tr ++ [(w, .perform i l o r)]) =
            (holdNotes cfg dryRun i tr).next cfg dryRun l o r := ghost_perform_self i tr w l o r
        rw [noted] at failed ⊢
        by_cases sells : ∃ p, o = .sellAll p
        · obtain ⟨p, rfl⟩ := sells
          obtain ⟨holding, added, _⟩ :=
            @HoldNotes.next_sellAll cfg dryRun (holdNotes cfg dryRun i tr) l p r
          rw [holding]
          rw [added] at failed
          rcases List.mem_append.mp failed with old | new
          · exact (ih old).later _
          split_ifs at new with sold
          · cases new
          · exact ⟨tr, w, l, p, r, [], rfl, Bool.eq_false_iff.mpr sold, Option.mem_toList.mp new,
              rfl⟩
        · obtain ⟨old, same⟩ := HoldNotes.failed_of_next (fun p same => sells ⟨p, same⟩) failed
          rw [same]
          exact (ih old).later _
      · have noted : holdNotes cfg dryRun i (tr ++ [(w, e)]) = holdNotes cfg dryRun i tr :=
          ghost_aside (fun l o r same => own ⟨l, o, r, same⟩) tr w
        rw [noted] at failed ⊢
        exact (ih failed).later _

/-- The session that gives its position a trailing exit in this step. -/
def trailingExit : GradLabel → Option (Nat × SessionLocals)
  | .perform i l (.call (.trySell (.exit (.dynamicTrail _ _ _ _)))) _ => some (i, l)
  | _ => none

theorem trailingExit_some {e : GradLabel} {l : SessionLocals} (h : trailingExit e = some (i, l)) :
    ∃ tierGain trail triggerAtPct currentPct r, e = .perform i l
      (.call (.trySell (.exit (.dynamicTrail tierGain trail triggerAtPct currentPct)))) r := by
  unfold trailingExit at h
  split at h
  · cases h
    exact ⟨_, _, _, _, _, rfl⟩
  · cases h

/-- Only positions of the dip buy are given a trailing exit. -/
def NeverTrails (tr : GradTrace) : Prop :=
  ∀ x ∈ tr, ∀ i l, trailingExit x.2 = some (i, l) →
    ∃ pos, l.selling = some pos ∧ pos.entryTrigger = .dipBuy

def profit? : ExitReason → Option ℚ
  | .takeProfit pct => some pct
  | _ => none

def sellFails (cfg : Market.Config) (dryRun : Bool) : GradLabel → Option Nat
  | .perform i _ (.sellAll p) answers => if soldOk cfg dryRun p answers then none else some i
  | _ => none

/-- No sell fails that is a take-profit of another position at a PnL that has reached the lowest
tier. -/
def TakeProfitsSell (cfg : Market.Config) (dryRun : Bool) : GradAdmit := fun tr _ e =>
  ∀ i ∈ sellFails cfg dryRun e, (holdNotes cfg dryRun i tr).holding.trigger ≠ .dipBuy →
    ∀ pct ∈ (holdNotes cfg dryRun i tr).asked.bind profit?,
      ∀ gain ∈ firstTierGain cfg.trading.dynamicTrailingStopThresholds, pct < gain

instance (cfg : Market.Config) (dryRun : Bool) (tr : GradTrace) (c : GradConfig) (e : GradLabel) :
    Decidable (TakeProfitsSell cfg dryRun tr c e) :=
  inferInstanceAs (Decidable (∀ i ∈ sellFails cfg dryRun e,
    (holdNotes cfg dryRun i tr).holding.trigger ≠ .dipBuy →
      ∀ pct ∈ (holdNotes cfg dryRun i tr).asked.bind profit?,
        ∀ gain ∈ firstTierGain cfg.trading.dynamicTrailingStopThresholds, pct < gain))

/-- Where the startup check warns, trailing stops engage only after such a failure. -/
theorem never_trails (cfg : Market.Config) (dryRun : Bool) (start : Instant) (tr : GradTrace)
    (c : GradConfig) (run : GradRun cfg dryRun start (TakeProfitsSell cfg dryRun) tr c)
    (warned : cfg.trailingNeverEngages) : NeverTrails tr := by
  rintro ⟨w, e⟩ mem i l trailed
  obtain ⟨tierGain, trail, triggerAtPct, currentPct, r, rfl⟩ := trailingExit_some trailed
  obtain ⟨pre, post, rfl⟩ := List.append_of_mem mem
  obtain ⟨c₁, _, before, _⟩ := run.upto pre w _ post rfl
  have permits := hold_permits run pre w i l _ r post rfl
  obtain ⟨judged, survived⟩ := permits.exits _ rfl
  obtain ⟨pos, selling, tracks⟩ := permits.taken _ rfl
  refine ⟨pos, selling, ?_⟩
  rw [tracks.trigger]
  by_contra universal
  have gives := ((permits.decided judged).1 _).mpr rfl
  obtain ⟨seen, x, gain, among, first, reached, profit⟩ := Holding.takeProfit_before_trail warned
    universal (holdNotes_timed before i).ordered gives
  -- that take-profit has failed to sell
  obtain ⟨pre', w', l', p, answers, post', rfl, unsold, asked, trigger⟩ :=
    failed_traced (survived seen x among _ profit)
  obtain ⟨_, _, _, _, sells, _⟩ := before.upto pre' w' _ post' rfl
  have fails : sellFails cfg dryRun (.perform i l' (.sellAll p) answers) = some i := by
    rw [sellFails, unsold]
    rfl
  have profits := congrArg (Option.bind · profit?) asked
  have early := sells i fails (trigger ▸ universal) _ profits gain first
  exact absurd early (not_lt.mpr reached)

end Runs

/-- A configuration on which ten ticks fire the capitulation trigger, with a take-profit below the
lowest trailing tier. -/
def hasty : Market.Config :=
  { eager with
    trading := { eager.trading with
      profitTargetPercent := 10
      dynamicTrailingStopThresholds := "12:5" }
    capitulation :=
      { enabled := true
        dipPct := 50
        windowSecs := 1
        reclaimPct := 0
        pendingExpireSecs := 60
        reclaimConfirmSecs := 0
        debounceSecs := 0 }
    dipBuy := { eager.dipBuy with enabled := false } }

/-- A position of the capitulation trigger is opened at 1 SOL and rises by 20 %. -/
def risingTicks : List BotMove :=
  warmUp 0 ++ (List.replicate 5 (price 0 1 10 ++ go readyNet 0 3)).flatten ++
    price 0 (3 / 2) 10 ++ go readyNet 0 9 ++ price 0 (6 / 5) 10

theorem never_trails_take_profit : ∃ tr,
    (holdNotes hasty false 0 tr).asked = some (.takeProfit 20) ∧ NeverTrails tr := by
  obtain ⟨tr, c, run, reached⟩ := System.drive_reaches (graduation hasty false)
    (TakeProfitsSell hasty false) (fun tr c e => TakeProfitsSell hasty false tr c e)
    (fun _ _ _ => of_decide_eq_true) (graduationStart hasty 0) (risingTicks ++ go readyNet 0 8)
    (fun tr _ => (holdNotes hasty false 0 tr).asked = some (.takeProfit 20)) (by decide +kernel)
  exact ⟨tr, of_decide_eq_true reached, never_trails hasty false 0 tr c run (by decide +kernel)⟩

/-- The take-profit fails to sell, and the price falls. -/
theorem failed_take_profit_trails : ¬ ∀ (cfg : Market.Config) (dryRun : Bool) (start : Instant)
    (tr : GradTrace) (c : GradConfig), GradRun cfg dryRun start always tr c →
      cfg.trailingNeverEngages → NeverTrails tr := by
  intro claimed
  obtain ⟨tr, c, run, reached⟩ := System.script_reaches (graduation hasty false)
    (graduationStart hasty 0)
    (risingTicks ++ go deafNet 0 6 ++ price 0 (21 / 20) 10 ++ go readyNet 0 4)
    (fun tr _ => tr.getLast?.any fun x => (trailingExit x.2).any fun y =>
      y.2.selling.map Position.entryTrigger = some .capitulation) (by decide +kernel)
  obtain ⟨x, last, reached⟩ := (Option.any_eq_true _ _).mp reached
  obtain ⟨⟨i, l⟩, trailed, capitulation⟩ := (Option.any_eq_true _ _).mp reached
  obtain ⟨pos, selling, dip⟩ := claimed hasty false 0 tr c run (by decide +kernel) x
    (List.mem_of_getLast? last) i l trailed
  have capitulation := of_decide_eq_true capitulation
  rw [selling, Option.map_some, dip] at capitulation
  cases capitulation

end HadesPsTrader.Tasks
