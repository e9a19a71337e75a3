/- Module: HadesPsTrader/Runs/CopyWalk
   source: src/copy_session.rs
   digest: The monitor loop of a copy session keeps what its pieces keep. -/

import HadesPsTrader.Runs.CopyPieces

set_option autoImplicit false
set_option relaxedAutoImplicit false

namespace HadesPsTrader.Tasks

open HadesPsTrader.Market HadesPsTrader.Chain HadesPsTrader.Interaction

section Walk

variable {G S : Type} {P : Protocol G S CopyLocals Op Reply} {J : G → CopyLocals → Prop}
  {cfg : Market.Config} {dryRun : Bool}
  (notes : ∀ g l rugGuard peakPct lastPrice sold, J g l →
    J g (l.noted rugGuard peakPct lastPrice sold))
  (sells : ∀ pct reason, Async.Keeps P J (doSell cfg dryRun pct reason))

include notes sells

theorem sellAndLeave_keeps (pct : ℚ) (reason : SellReason) :
    Async.Keeps P J (sellAndLeave cfg dryRun pct reason) := by
  apply Async.Keeps.bind
  · exact sells pct reason
  intro _
  apply Async.Keeps.bind
  · exact .assign fun g l here => notes g l l.rugGuard l.peakPct l.lastPrice true here
  intro _
  exact .pure _

theorem onCopyTick_keeps (ages : Async.Keeps P J (instantNow .exitAge : CopyM Instant))
    (u : PriceUpdate) : Async.Keeps P J (onCopyTick cfg dryRun u) := by
  apply Async.Keeps.bind
  · exact .assign fun g l here =>
      notes g l (l.rugGuard.observe u.priceSol u.poolSol) l.peakPct (some u.priceSol) l.sold here
  intro _
  apply Async.Keeps.bind
  · exact .locals
  intro l
  dsimp only
  split
  · exact sellAndLeave_keeps notes sells _ _
  · apply Async.Keeps.bind
    · exact .assign fun g l here => notes g l l.rugGuard _ l.lastPrice l.sold here
    intro _
    apply Async.Keeps.bind
    · exact ages
    intro now
    split
    · exact .pure _
    · apply Async.Keeps.bind
      · exact sells _ _
      intro res
      match res with
      | .ok () =>
          apply Async.Keeps.bind
          · exact .assign fun g l here => notes g l l.rugGuard l.peakPct l.lastPrice true here
          intro _
          exact .pure _
      | .error e => exact .pure _

theorem onMirror_keeps (shuts : ∀ g l, J g l → J g { l with mirrorOpen := false })
    (r : Received AlphaTrade) : Async.Keeps P J (onMirror cfg dryRun r) := by
  apply Async.Keeps.bind
  · exact .locals
  intro l
  cases r with
  | got sell =>
      dsimp only
      split_ifs
      · exact sellAndLeave_keeps notes sells _ _
      · exact .pure _
  | lagged n => exact .pure _
  | closed =>
      apply Async.Keeps.bind
      · exact .assign shuts
      intro _
      exact .pure _

theorem copyRound_keeps (ages : Async.Keeps P J (instantNow .exitAge : CopyM Instant))
    (shuts : ∀ g l, J g l → J g { l with mirrorOpen := false })
    (waits : ∀ mirrorOpen, Async.Keeps P J (copySelect mirrorOpen)) :
    Async.Keeps P J (copyRound cfg dryRun) := by
  apply Async.Keeps.bind
  · exact .locals
  intro l
  apply Async.Keeps.bind
  · exact waits _
  intro event
  match event with
  | .deadline => exact sellAndLeave_keeps notes sells _ _
  | .shutdown (.got ()) => exact sellAndLeave_keeps notes sells _ _
  | .shutdown .closed => exact sellAndLeave_keeps notes sells _ _
  | .shutdown (.lagged _) => exact .pure _
  | .mirror r => exact onMirror_keeps notes sells shuts r
  | .tick none => exact .pure _
  | .tick (some sample) => exact onCopyTick_keeps notes sells ages sample.update

end Walk

end HadesPsTrader.Tasks
