/- Module: HadesPsTrader/Feeds/BotEntries
   source: src/main.rs, src/session.rs, src/price_feed.rs
   digest: The entries of the bot are decided on what its poll tasks have read. -/

import HadesPsTrader.Feeds.BotRuns
import HadesPsTrader.Runs.EntrySignals

set_option autoImplicit false
set_option relaxedAutoImplicit false

namespace HadesPsTrader.Feeds

open HadesPsTrader.Interaction HadesPsTrader.Chain
open HadesPsTrader.Market (Instant Duration DipTick entrySignal)
open Tasks (Sample World SessionLocals TaskProc Op Reply Value GradTrace receivedTicks
  receivedTicks_append sampleOf tickOf)

theorem tickOf_eq {o : Op} {r : Reply o} :
    tickOf o r = (sampleOf o r).map fun s => s.update.dipTick := by
  cases o with
  | select =>
      cases r with
      | deadline => rfl
      | tick received => cases received <;> rfl
  | _ => rfl

theorem ticks_received {i : Nat} {tr : GradTrace} : Interaction.events i tickOf tr =
    (receivedTicks i (exchanges tr)).map fun s => s.update.dipTick := by
  rw [events_exchanges, receivedTicks, List.map_filterMap]
  apply List.filterMap_congr
  intro x _
  split_ifs
  · exact tickOf_eq
  · rfl

section Runs

variable {cfg : Market.Config} {dryRun : Bool} {fromStr : String → Option Value}
  {interval : Duration} {timeout : Nat} {start : Instant} {ops : List (Nat × Sigma Reply)}
  {b : Bot}

theorem polled_setPoll {i j : Nat} {side : PollSide}
    (kept : i ≠ j → ∃ side', b.polls i = some side') :
    ∃ side', (b.setPoll j side).polls i = some side' := by
  rw [Bot.setPoll]
  dsimp only
  by_cases same : i = j
  · subst same
    exact ⟨side, Function.update_self ..⟩
  · rw [Function.update_of_ne same]
    exact kept same

theorem polled_of_received (run : BotRun cfg dryRun fromStr interval timeout start ops b) {i : Nat}
    (some_tick : receivedTicks i ops ≠ []) : ∃ side, b.polls i = some side := by
  induction run with
  | start => exact absurd rfl some_tick
  | @perform ops b b' j l o resume r before pending granted ih =>
      have other (apart : i ≠ j) : ∃ side, b.polls i = some side := by
        rw [receivedTicks_append, if_neg (Ne.symm apart), List.append_nil] at some_tick
        exact ih some_tick
      have quiet (nothing : sampleOf o r = none) : ∃ side, b.polls i = some side := by
        rw [receivedTicks_append, nothing, Option.toList_none, ite_self, List.append_nil]
          at some_tick
        exact ih some_tick
      rcases perform_cases granted with ⟨mint, rfl, rfl⟩ |
        ⟨s, side, side', tick, polled, head, moved, rfl⟩ | ⟨nothing, v, rfl⟩
      · exact polled_setPoll other
      · exact polled_setPoll other
      · exact quiet nothing
  | unroll before pending ih => exact ih some_tick
  | @advance ops b d before ih =>
      obtain ⟨side, here⟩ := ih some_tick
      obtain ⟨side', moved⟩ : ∃ side', side.after (.advance d) = some side' := ⟨_, rfl⟩
      refine ⟨side', ?_⟩
      change (b.polls i).bind (fun side => side.after (.advance d)) = some side'
      rw [here]
      exact moved
  | fire before granted ih => exact ih some_tick
  | poll before here moved own faithful ih => exact polled_setPoll fun _ => ih some_tick
  | drop before here ended gone ih => exact polled_setPoll fun _ => ih some_tick
  | listen before moved present ih => exact ih some_tick
  | migrate before next ih => exact ih some_tick

end Runs

end HadesPsTrader.Feeds
