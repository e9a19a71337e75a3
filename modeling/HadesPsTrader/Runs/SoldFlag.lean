/- Module: HadesPsTrader/Runs/SoldFlag
   source: src/copy_session.rs
   digest: When the `sold` flag of a copy session means that its position was sold. -/

import HadesPsTrader.Runs.CopyMode

set_option autoImplicit false
set_option relaxedAutoImplicit false

namespace HadesPsTrader.Tasks

open HadesPsTrader.Market HadesPsTrader.Chain HadesPsTrader.Interaction

/-- A copy session marks its position as sold, or gives up its slot behind the monitor loop, only
with reason. -/
structure SoldHonestly (cfg : Market.Config) (dryRun : Bool) (tr : CopyTrace) (c : CopyConfig) :
    Prop where
  /-- Where the flag is set, a `do_sell` of the loop has returned `Ok`. -/
  flag : ∀ i t, c.tasks[i]? = some t → t.locals.sold = true →
    (copyDiary cfg dryRun i tr).sold = true
  /-- Before a monitored slot is released, a `do_sell` of the loop has returned `Ok`, or the forced
  exit was tried. -/
  release : ∀ i l resume, c.tasks[i]? = some (.op l .fetchSub resume) →
    (copyDiary cfg dryRun i tr).monitored = true →
    (copyDiary cfg dryRun i tr).sold = true ∨ (copyDiary cfg dryRun i tr).forced = true

/-- The flag is honest exactly as long as the sell of every deadline, shutdown, mirror and rug exit
returned `Ok`. -/
theorem sold_honestly_iff (cfg : Market.Config) (dryRun : Bool) (start : Instant) (tr : CopyTrace)
    (c : CopyConfig) (run : CopyRun cfg dryRun start always tr c) :
    SoldHonestly cfg dryRun tr c ↔ ∀ i, (copyDiary cfg dryRun i tr).lost = false := by
  constructor
  · intro honest i
    by_contra lost
    rw [Bool.not_eq_false] at lost
    have spawned : i < c.tasks.length := by
      by_contra new
      rw [copyDiary, Run.ghost_unspawned _ _ run i (not_lt.mp new)] at lost
      cases lost
    have here := List.getElem?_eq_getElem spawned
    obtain ⟨flag, unsold⟩ := (copy_flagged run here).lost lost
    rw [honest.flag i _ here flag] at unsold
    cases unsold
  · intro kept
    constructor
    · intro i t here flag
      have earned := (copy_flagged run here).sold flag
      apply earned.resolve_right
      rw [kept i]
      simp
    · intro i l resume here seen
      rcases (copy_permits run here).2 seen with sold | lost | forced
      · exact .inl sold
      · rw [kept i] at lost
        cases lost
      · exact .inr forced

theorem sold_honestly_mirror_exit : ∃ tr c, (copyDiary eager false 0 tr).sold = true ∧
    SoldHonestly eager false tr c := by
  obtain ⟨tr, c, run, sold⟩ := System.script_reaches (copyMode eager false)
    (copyStart eager 0)
    (copyEntry 0 "A" ++ [.env (.frame (alphaTrade someMint "A" "sell") 0)] ++ go readyNet 0 7)
    (fun tr c => c.tasks.length = 1 ∧ (copyDiary eager false 0 tr).sold = true ∧
      (copyDiary eager false 0 tr).lost = false) (by decide +kernel)
  obtain ⟨single, sold, kept⟩ := of_decide_eq_true sold
  refine ⟨tr, c, sold, (sold_honestly_iff eager false 0 tr c run).mpr ?_⟩
  intro i
  rcases Nat.eq_zero_or_pos i with rfl | positive
  · exact kept
  · rw [copyDiary, Run.ghost_unspawned _ _ run i (by omega)]

/-- The alpha closes the mint, and the sell that mirrors it fails: the session counts the position
as sold and releases its slot. -/
theorem failed_mirror_exit_counts_as_sold : ∃ tr c, CopyRun eager false 0 always tr c ∧
    ¬ SoldHonestly eager false tr c := by
  obtain ⟨tr, c, run, lost⟩ := System.script_reaches (copyMode eager false)
    (copyStart eager 0)
    (copyEntry 0 "A" ++ [.env (.frame (alphaTrade someMint "A" "sell") 0)] ++ go deafNet 0 5)
    (fun tr c => (c.tasks.map fun t => (t.finished, t.locals.sold)) = [(true, true)] ∧
      (copyDiary eager false 0 tr).sold = false) (by decide +kernel)
  obtain ⟨ended, unsold⟩ := of_decide_eq_true lost
  refine ⟨tr, c, run, ?_⟩
  intro honest
  obtain ⟨t, tasks, here⟩ := List.map_eq_singleton_iff.mp ended
  rw [honest.flag 0 t (by rw [tasks]; rfl) (congrArg Prod.snd here)] at unsold
  cases unsold

end HadesPsTrader.Tasks
