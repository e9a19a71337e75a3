/- Module: HadesPsTrader/Runs/SessionWalk
   source: src/session.rs, src/main.rs
   digest: A graduation session keeps what its pieces keep. -/

import HadesPsTrader.Interaction.Steady
import HadesPsTrader.Tasks.Session

set_option autoImplicit false
set_option relaxedAutoImplicit false

namespace HadesPsTrader.Tasks

open HadesPsTrader.Market HadesPsTrader.Chain HadesPsTrader.Interaction

def Op.isSetup : Op → Bool
  | .fetchTokenMetadata _ => true
  | .runFilters _ => true
  | .now .sessionStart => true
  | .spawnPricePoll _ => true
  | .sleepUntil _ => true
  | _ => false

/-- The set-up operations behind the look-up of the name. -/
def Op.isOpening : Op → Bool
  | .fetchTokenMetadata _ => false
  | o => o.isSetup

theorem isSetup_of_isOpening {o : Op} (opening : o.isOpening = true) : o.isSetup = true := by
  cases o with
  | fetchTokenMetadata mint => rfl
  | _ => exact opening

/-- The locals agree on the position and on the rug guard. -/
def SessionLocals.SameWatch (l l' : SessionLocals) : Prop :=
  l'.position = l.position ∧ l'.rugGuard = l.rugGuard

/-- The locals differ at most in what the signals are computed from. -/
def SessionLocals.Recharted (l l' : SessionLocals) : Prop :=
  ∃ capDetector dipBuyDetector aggregator macd, l' = { l with
    capDetector := capDetector
    dipBuyDetector := dipBuyDetector
    aggregator := aggregator
    macd := macd }

theorem SessionLocals.Recharted.sameWatch {l l' : SessionLocals} (recharted : l.Recharted l') :
    l.SameWatch l' := by
  obtain ⟨_, _, _, _, rfl⟩ := recharted
  exact ⟨rfl, rfl⟩

section Walk

variable {G S : Type} {P : Protocol G S SessionLocals Op Reply} {J : G → SessionLocals → Prop}
  {cfg : Market.Config} {dryRun : Bool} {mint : Pubkey} {now : Instant} {u : PriceUpdate}

theorem gatedEntry_keeps {trigger : EntryTrigger}
    (enters : Async.Keeps P J (enterPosition cfg dryRun mint trigger)) :
    Async.Keeps P J (gatedEntry cfg dryRun mint now trigger) := by
  apply Async.Keeps.bind
  · exact .locals
  intro l
  split_ifs
  · exact .pure _
  split
  · split_ifs
    · exact .pure _
    · exact enters
  · exact enters

section Charts

variable (charts : ∀ g (l l' : SessionLocals), l.Recharted l' → J g l → J g l')

include charts in
theorem chart_keeps {f : SessionLocals → SessionLocals}
    (recharted : ∀ l, SessionLocals.Recharted l (f l)) :
    Async.Keeps P J (Async.assign f : SessionM Unit) :=
  .assign fun g l => charts g l (f l) (recharted l)

variable (gated : ∀ now trigger, Async.Keeps P J (gatedEntry cfg dryRun mint now trigger))

include charts gated

theorem dipBuyEntry_charts : Async.Keeps P J (dipBuyEntry cfg dryRun mint now u) := by
  apply Async.Keeps.bind
  · exact .locals
  intro l
  split_ifs
  · apply Async.Keeps.bind
    · exact chart_keeps charts fun _ => ⟨_, _, _, _, rfl⟩
    intro _
    split
    · exact gated now .dipBuy
    · exact .pure _
  · exact .pure _

theorem capitulationEntry_charts : Async.Keeps P J (capitulationEntry cfg dryRun mint now u) := by
  apply Async.Keeps.bind
  · exact .locals
  intro l
  split_ifs
  · apply Async.Keeps.bind
    · exact chart_keeps charts fun _ => ⟨_, _, _, _, rfl⟩
    intro _
    split
    · exact gated now .capitulation
    · exact .pure _
  · exact .pure _

theorem macdEntry_charts : Async.Keeps P J (macdEntry cfg dryRun mint now u) := by
  apply Async.Keeps.bind
  · exact .locals
  intro l
  generalize l.aggregator.onTick u.priceSol now = ticked
  obtain ⟨aggregator, closed⟩ := ticked
  apply Async.Keeps.bind
  · exact chart_keeps charts fun _ => ⟨_, _, _, _, rfl⟩
  intro _
  cases closed with
  | none => exact .pure _
  | some close =>
      dsimp only
      generalize l.macd.onClose close = answered
      obtain ⟨macd, event⟩ := answered
      apply Async.Keeps.bind
      · exact chart_keeps charts fun _ => ⟨_, _, _, _, rfl⟩
      intro _
      cases event with
      | warmup => exact .pure _
      | noCross snapshot => exact .pure _
      | crossover snapshot direction =>
          cases direction with
          | bearish => exact .pure _
          | bullish =>
              dsimp only
              split_ifs
              · exact .pure _
              · exact .pure _
              · exact gated now .macd

theorem entries_chart : Async.Keeps P J (do
    dipBuyEntry cfg dryRun mint now u
    capitulationEntry cfg dryRun mint now u
    macdEntry cfg dryRun mint now u
    pure (none : Option Unit)) := by
  apply Async.Keeps.bind
  · exact dipBuyEntry_charts charts gated
  intro _
  apply Async.Keeps.bind
  · exact capitulationEntry_charts charts gated
  intro _
  apply Async.Keeps.bind
  · exact macdEntry_charts charts gated
  intro _
  exact .pure _

end Charts

section Signals

variable (aside : ∀ g (l l' : SessionLocals), l.SameWatch l' → J g l → J g l')

variable (gated : ∀ now trigger, Async.Keeps P J (gatedEntry cfg dryRun mint now trigger))

include aside gated

theorem dipBuyEntry_keeps : Async.Keeps P J (dipBuyEntry cfg dryRun mint now u) :=
  dipBuyEntry_charts (fun g l l' recharted => aside g l l' recharted.sameWatch) gated

theorem capitulationEntry_keeps : Async.Keeps P J (capitulationEntry cfg dryRun mint now u) :=
  capitulationEntry_charts (fun g l l' recharted => aside g l l' recharted.sameWatch) gated

theorem macdEntry_keeps : Async.Keeps P J (macdEntry cfg dryRun mint now u) :=
  macdEntry_charts (fun g l l' recharted => aside g l l' recharted.sameWatch) gated

theorem entries_keep : Async.Keeps P J (do
    dipBuyEntry cfg dryRun mint now u
    capitulationEntry cfg dryRun mint now u
    macdEntry cfg dryRun mint now u
    pure (none : Option Unit)) :=
  entries_chart (fun g l l' recharted => aside g l l' recharted.sameWatch) gated

theorem onTick_keeps
    (observes : ∀ g l lastPrice rugGuard, J g l →
      J g { l with lastPrice := lastPrice, rugGuard := rugGuard })
    (sells : ∀ pct reason, Async.Keeps P J (sellForGood cfg dryRun pct (.rugDetected reason)))
    (exits : ∀ price, Async.Keeps P J (pnlExit cfg dryRun price))
    (ticks : Async.Keeps P J (instantNow .tick : SessionM Instant)) :
    Async.Keeps P J (onTick cfg dryRun mint u) := by
  apply Async.Keeps.bind
  · exact .assign fun g l => observes g l _ _
  intro _
  apply Async.Keeps.bind
  · exact .locals
  intro l
  split
  · apply Async.Keeps.bind
    · exact sells _ _
    intro _
    exact .pure _
  · apply Async.Keeps.bind
    · exact exits _
    intro _
    apply Async.Keeps.bind
    · exact ticks
    intro now
    exact entries_keep aside gated

end Signals

theorem sessionRound_keeps (selects : Async.Keeps P J selectTick)
    (ticks : ∀ u, Async.Keeps P J (onTick cfg dryRun mint u)) :
    Async.Keeps P J (sessionRound cfg dryRun mint) := by
  apply Async.Keeps.bind
  · exact selects
  intro event
  match event with
  | .deadline => exact .pure _
  | .tick none => exact .pure _
  | .tick (some sample) => exact ticks sample.update

section Opening

variable (opens : ∀ o, o.isOpening = true →
  Async.Keeps P J (Async.perform o : SessionM (Reply o)))

include opens

theorem runSession_keeps (coherent : ∀ g l, J g l → P.coherent g l)
    (starts : ∀ t, Async.Keeps P J (Async.assign fun l => .start cfg l.event t : SessionM Unit))
    (rounds : Async.Keeps P J (sessionRound cfg dryRun mint))
    (sells : ∀ pct, Async.Keeps P J (sellForGood cfg dryRun pct .forcedExit)) :
    Async.Keeps P J (runSession cfg dryRun mint) := by
  apply Async.Keeps.bind
  · exact opens _ rfl
  intro sessionStart
  apply Async.Keeps.bind
  · exact .locals
  intro l
  apply Async.Keeps.bind
  · exact opens _ rfl
  intro _
  apply Async.Keeps.bind
  · exact starts sessionStart
  intro _
  apply Async.Keeps.bind
  · exact opens _ rfl
  intro _
  apply Async.Keeps.bind
  · exact .loop coherent rounds
  intro _
  apply Async.Keeps.bind
  · exact .locals
  intro l
  exact sells _

end Opening

section Handle

variable {Q : G → SessionLocals → Prop}
  (filters : ∀ mint, Async.Keeps P J (Async.perform (Op.runFilters mint) : SessionM Bool))
  (ended : ∀ g l, J g l → Q g l)
  (runs : ∀ mint g l, Pubkey.fromStr l.event.mint = some mint → J g l →
    Async.wp P (runSession cfg dryRun mint) (fun g l _ => Q g l) g l)

include filters ended runs

theorem handle_wp {g : G} {l : SessionLocals} (here : J g l) :
    Async.wp P (handle cfg dryRun) (fun g l _ => Q g l) g l := by
  rw [handle, Async.wp_locals_bind]
  cases parsed : Pubkey.fromStr l.event.mint with
  | none => exact ended g l here
  | some mint =>
      dsimp only
      split_ifs
      · apply (filters mint).step here
        intro g' passed here'
        split_ifs
        · exact runs mint g' l parsed here'
        · exact ended g' l here'
      · exact runs mint g l parsed here

/-- What is ahead of `run_session` keeps `J`, and from there every session leads to `Q`. -/
theorem sessionTask_wp
    (looks : ∀ mint, Async.Keeps P J
      (Async.perform (Op.fetchTokenMetadata mint) :
        SessionM (Reply (Op.fetchTokenMetadata mint))))
    (named : ∀ g l name symbol, J g l →
      J g { l with event := { l.event with name := some name, symbol := some symbol } })
    {g : G} {l : SessionLocals} (here : J g l) :
    Async.wp P (sessionTask cfg dryRun) (fun g l _ => Q g l) g l := by
  rw [sessionTask, Async.wp_locals_bind]
  split
  · apply (looks _).step here
    intro g' looked here'
    cases looked with
    | error e => exact handle_wp filters ended runs here'
    | ok answer =>
        rw [Async.wp_assign_bind]
        exact handle_wp filters ended runs (named g' l _ _ here')
  · exact handle_wp filters ended runs here

end Handle

theorem handle_keeps
    (opens : ∀ o, o.isOpening = true → Async.Keeps P J (Async.perform o : SessionM (Reply o)))
    (runs : ∀ mint, Async.Keeps P J (runSession cfg dryRun mint)) :
    Async.Keeps P J (handle cfg dryRun) := by
  intro g l here
  apply handle_wp (fun mint => opens (.runFilters mint) rfl) (fun _ _ here => here) ?_ here
  exact fun mint g l _ here => runs mint g l here

theorem sessionTask_keeps
    (sets : ∀ o, o.isSetup = true → Async.Keeps P J (Async.perform o : SessionM (Reply o)))
    (runs : ∀ mint, Async.Keeps P J (runSession cfg dryRun mint))
    (aside : ∀ g (l l' : SessionLocals), l.SameWatch l' → J g l → J g l') :
    Async.Keeps P J (sessionTask cfg dryRun) := by
  intro g l here
  apply sessionTask_wp (fun mint => sets (.runFilters mint) rfl) (fun _ _ here => here) ?_
    (fun mint => sets (.fetchTokenMetadata mint) rfl) ?_ here
  · exact fun mint g l _ here => runs mint g l here
  · exact fun g l _ _ here => aside g l _ ⟨rfl, rfl⟩ here

end Walk

end HadesPsTrader.Tasks
