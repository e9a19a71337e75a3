/- Module: HadesPsTrader/Runs/EntrySignals
   source: src/session.rs
   digest: A session buys exactly when its ticks signal it and its gates are open. -/

import HadesPsTrader.Market.Signals
import HadesPsTrader.Runs.Graduation
import HadesPsTrader.Runs.MacdWindow
import HadesPsTrader.Runs.SessionPieces
import HadesPsTrader.Runs.SessionWalk

set_option autoImplicit false
set_option relaxedAutoImplicit false

namespace HadesPsTrader.Tasks

open HadesPsTrader.Market HadesPsTrader.Chain HadesPsTrader.Interaction

/-- A price update as a tick of the detectors. -/
def PriceUpdate.dipTick (u : PriceUpdate) : DipTick := ⟨u.priceSol, u.poolSol⟩

def tickOf : (o : Op) → Reply o → Option DipTick
  | .select, .tick (some sample) => some sample.update.dipTick
  | _, _ => none

/-- What is noted of the ticks of a session: when it started, the update that waits for its clock
reading, the ticks that have theirs, and the signal of the last one until something is done. -/
structure SignalNotes where
  start : Instant := 0
  unread : Option DipTick := none
  ticks : List (Instant × DipTick) := []
  judged : Option (Instant × Option EntryTrigger) := none

/-- The gates in front of `try_buy` are open. -/
structure SessionLocals.Open (cfg : Market.Config) (now : Instant) (l : SessionLocals) : Prop where
  flat : l.position = none
  cooled : ∀ t ∈ l.lastSellAt, fromSecs cfg.macd.cooldownSecs ≤ durationSince now t

namespace SignalNotes

variable (cfg : Market.Config)

def done (g : SignalNotes) : SignalNotes := { g with judged := none }

/-- The clock is read for the update that waits. -/
def judge (g : SignalNotes) (now : Instant) : SignalNotes :=
  match g.unread with
  | none => g.done
  | some tick =>
    { g with
      unread := none
      ticks := g.ticks ++ [(now, tick)]
      judged := some (now, entrySignal cfg g.start g.ticks (now, tick)) }

def next (g : SignalNotes) : (o : Op) → Reply o → SignalNotes
  | .now .sessionStart, t => { g.done with start := t }
  | .now .tick, t => g.judge cfg t
  | .select, .tick (some sample) => { g.done with unread := some sample.update.dipTick }
  | _, _ => g.done

/-- The last tick signals this entry, and the gates are open. -/
def Due (g : SignalNotes) (l : SessionLocals) (trigger : EntryTrigger) : Prop :=
  ∃ now, g.judged = some (now, some trigger) ∧ l.Open cfg now

structure Permits (g : SignalNotes) (l : SessionLocals) (o : Op) : Prop where
  /-- It buys exactly on the entry that is due. -/
  enters : ∀ trigger, o = .call (.tryBuy trigger) ↔ g.Due cfg l trigger
  /-- A tick without one is followed by the next event. -/
  waits : g.judged.isSome = true → (∀ trigger, ¬ g.Due cfg l trigger) → o = .select
  /-- No tick is passed. -/
  reads : o = .select → g.unread = none

end SignalNotes

def signalProtocol (cfg : Market.Config) : Protocol SignalNotes World SessionLocals Op Reply where
  coherent _ _ := True
  guard g l o := g.Permits cfg l o
  valid _ _ _ _ _ := True
  next g _ _ o r := g.next cfg o r

section Walk

variable {cfg : Market.Config} {dryRun : Bool} {α : Type} {g : SignalNotes} {l : SessionLocals}
  {mint : Pubkey} {now : Instant}

namespace SignalNotes

theorem not_due (judged : g.judged = none) (trigger : EntryTrigger) : ¬ g.Due cfg l trigger := by
  rintro ⟨now, same, _⟩
  cases judged.symm.trans same

theorem next_trading {o : Op} {r : Reply o} (judged : g.judged = none)
    (trading : o.isTrading = true) : g.next cfg o r = g := by
  have same : g.done = g := by rw [done, ← judged]
  cases o with
  | now site =>
    cases site with
    | sessionStart => cases trading
    | tick => cases trading
    | _ => exact same
  | select => cases trading
  | _ => exact same

theorem permits_quiet {o : Op} (judged : g.judged = none)
    (calls : ∀ trigger, o ≠ .call (.tryBuy trigger)) (selects : o ≠ .select) :
    g.Permits cfg l o where
  enters trigger :=
    ⟨fun same => absurd same (calls trigger), fun due => absurd due (not_due judged trigger)⟩
  waits some := by
    rw [judged] at some
    cases some
  reads same := absurd same selects

theorem permits_trading {o : Op} (judged : g.judged = none) (trading : o.isTrading = true) :
    g.Permits cfg l o := by
  apply permits_quiet judged
  · rintro trigger rfl
    cases trading
  · rintro rfl
    cases trading

/-- The entry that is due is decided: it is under way, or it was none. -/
def Settled (cfg : Market.Config) (g g' : SignalNotes) (l : SessionLocals) : Prop :=
  g' = g.done ∨ g' = g ∧ ∀ trigger, ¬ g.Due cfg l trigger

theorem Settled.charted {g' : SignalNotes} {l' : SessionLocals} (settled : g.Settled cfg g' l)
    (position : l'.position = l.position) (lastSellAt : l'.lastSellAt = l.lastSellAt) :
    g.Settled cfg g' l' := by
  rcases settled with done | ⟨same, shut⟩
  · exact .inl done
  · refine .inr ⟨same, ?_⟩
    rintro trigger ⟨now, judged, gates⟩
    refine shut trigger ⟨now, judged, ?_, ?_⟩
    · rw [← position, gates.flat]
    · rw [← lastSellAt]
      exact gates.cooled

end SignalNotes

def SessionLocals.indicators (l : SessionLocals) :
    DipBuyDetector × CapitulationDetector × Chart :=
  (l.dipBuyDetector, l.capDetector, l.chart)

theorem indicators_eq_iff {l' : SessionLocals} : l'.indicators = l.indicators ↔
    l'.dipBuyDetector = l.dipBuyDetector ∧ l'.capDetector = l.capDetector ∧
      l'.chart = l.chart := by
  rw [SessionLocals.indicators, SessionLocals.indicators, Prod.mk.injEq, Prod.mk.injEq]

theorem indicators_aside {l' : SessionLocals} (same : l'.untraded = l.untraded) :
    l'.indicators = l.indicators := by
  have untraded (l : SessionLocals) : l.untraded.indicators = l.indicators := rfl
  rw [← untraded, same, untraded]

theorem signals_trading {m : SessionM α} (judged : g.judged = none)
    (calm : Async.Steady World (fun o => o.isTrading = true)
      (fun l' => l'.indicators = l.indicators) m) :
    Async.wp (signalProtocol cfg) m (fun g' l' _ => g' = g ∧ l'.indicators = l.indicators)
      g l := by
  apply calm.wp rfl
  · exact fun _ _ => trivial
  · exact fun _ _ _ trading => SignalNotes.permits_trading judged trading
  · exact fun _ _ _ _ trading => SignalNotes.next_trading judged trading
  · exact fun _ _ inside => ⟨rfl, inside⟩

theorem tryBuy_called {trigger : EntryTrigger} {I : SessionLocals → Prop}
    (aside : ∀ l l' : SessionLocals, l'.untraded = l.untraded → I l → I l') :
    Async.Steady World (fun o => o.isTrading = true) I (do
      Async.assign fun l : SessionLocals => { l with buying := some { trigger := trigger } }
      if trigger = .dipBuy then do
        let now ← instantNow .spendCheck
        let allowed ← spendCheck now cfg.amountSol
        match allowed with
        | .error _ => pure none
        | .ok () => buyInSlot cfg dryRun mint trigger
      else buyInSlot cfg dryRun mint trigger) := by
  have covers (o : Op) (trading : o.isTrading = true) (_ : o.sellsForGood = false) :
      o.isTrading = true := trading
  apply Async.Steady.bind
  · exact trade_steady aside fun _ => rfl
  intro _
  split_ifs
  · apply Async.Steady.bind
    · exact .perform rfl
    intro now
    apply Async.Steady.bind
    · exact .perform rfl
    intro allowed
    cases allowed with
    | error spent => exact .pure _
    | ok _ => exact buyInSlot_steady covers aside
  · exact buyInSlot_steady covers aside

theorem signals_enterPosition {trigger : EntryTrigger} (due : g.Due cfg l trigger) :
    Async.wp (signalProtocol cfg) (enterPosition cfg dryRun mint trigger)
      (fun g' l' _ => g' = g.done ∧ l'.indicators = l.indicators) g l := by
  obtain ⟨now, judged, gates⟩ := due
  rw [enterPosition, tryBuy]
  refine Async.wp_bind.mpr (Async.wp_step trivial ?_ ?_)
  · constructor
    · intro other
      constructor
      · intro same
        cases same
        exact ⟨now, judged, gates⟩
      · rintro ⟨now', same, _⟩
        cases judged.symm.trans same
        rfl
    · exact fun _ none => absurd ⟨now, judged, gates⟩ (none trigger)
    · intro same
      cases same
  · intro w called _
    have aside (l₁ l₂ : SessionLocals) (same : l₂.untraded = l₁.untraded)
        (inside : l₁.indicators = l.indicators) : l₂.indicators = l.indicators :=
      (indicators_aside same).trans inside
    exact Async.wp_mono _ (signals_trading rfl (tryBuy_called aside)) fun _ _ _ here => here

theorem signals_gatedEntry {trigger : EntryTrigger} (judged : g.judged = some (now, some trigger)) :
    Async.wp (signalProtocol cfg) (gatedEntry cfg dryRun mint now trigger)
      (fun g' l' _ => g.Settled cfg g' l' ∧ l'.indicators = l.indicators) g l := by
  have shut (closed : ¬ l.Open cfg now) (other : EntryTrigger) : ¬ g.Due cfg l other := by
    rintro ⟨now', same, gates⟩
    cases judged.symm.trans same
    exact closed gates
  have enters (gates : l.Open cfg now) :
      Async.wp (signalProtocol cfg) (enterPosition cfg dryRun mint trigger)
        (fun g' l' _ => g.Settled cfg g' l' ∧ l'.indicators = l.indicators) g l := by
    refine Async.wp_mono _ (signals_enterPosition ⟨now, judged, gates⟩) ?_
    exact fun _ _ _ here => ⟨.inl here.1, here.2⟩
  rw [gatedEntry, Async.wp_locals_bind]
  split_ifs with held
  · refine ⟨.inr ⟨rfl, shut ?_⟩, rfl⟩
    rintro ⟨flat, _⟩
    rw [flat] at held
    cases held
  have flat : l.position = none := by simpa using held
  cases sold : l.lastSellAt with
  | none =>
    apply enters ⟨flat, ?_⟩
    rw [sold]
    intro t here
    cases here
  | some t =>
    dsimp only
    split_ifs with hot
    · refine ⟨.inr ⟨rfl, shut ?_⟩, rfl⟩
      rintro ⟨_, cooled⟩
      exact absurd hot (not_lt.mpr (cooled t sold))
    · apply enters ⟨flat, ?_⟩
      rw [sold]
      rintro t' ⟨⟩
      exact not_lt.mp hot

section Rules

variable {Q : SignalNotes → SessionLocals → Unit → Prop} {u : PriceUpdate}

theorem dipBuyEntry_rule
    (off : l.dipBuyDetector.enabled = false → Q g l ())
    (fires : l.dipBuyDetector.enabled = true →
      ((l.dipBuyDetector.observe now u.priceSol u.poolSol).check now).2.isSome = true →
      Async.wp (signalProtocol cfg) (gatedEntry cfg dryRun mint now .dipBuy) Q g { l with
        dipBuyDetector := ((l.dipBuyDetector.observe now u.priceSol u.poolSol).check now).1 })
    (quiet : l.dipBuyDetector.enabled = true →
      ((l.dipBuyDetector.observe now u.priceSol u.poolSol).check now).2 = none →
      Q g { l with
        dipBuyDetector := ((l.dipBuyDetector.observe now u.priceSol u.poolSol).check now).1 } ()) :
    Async.wp (signalProtocol cfg) (dipBuyEntry cfg dryRun mint now u) Q g l := by
  rw [dipBuyEntry, Async.wp_locals_bind]
  split_ifs with on
  · dsimp only
    rw [Async.wp_assign_bind]
    cases fired : ((l.dipBuyDetector.observe now u.priceSol u.poolSol).check now).2 with
    | none => exact quiet on fired
    | some signal => exact fires on (by rw [fired]; rfl)
  · exact off (Bool.eq_false_iff.mpr on)

theorem capitulationEntry_rule
    (off : l.dipBuyDetector.enabled = true ∨ l.capDetector.enabled = false → Q g l ())
    (fires : l.dipBuyDetector.enabled = false → l.capDetector.enabled = true →
      ((l.capDetector.observe now u.priceSol).check now u.priceSol).2.isSome = true →
      Async.wp (signalProtocol cfg) (gatedEntry cfg dryRun mint now .capitulation) Q g { l with
        capDetector := ((l.capDetector.observe now u.priceSol).check now u.priceSol).1 })
    (quiet : l.dipBuyDetector.enabled = false → l.capDetector.enabled = true →
      ((l.capDetector.observe now u.priceSol).check now u.priceSol).2 = none →
      Q g { l with
        capDetector := ((l.capDetector.observe now u.priceSol).check now u.priceSol).1 } ()) :
    Async.wp (signalProtocol cfg) (capitulationEntry cfg dryRun mint now u) Q g l := by
  rw [capitulationEntry, Async.wp_locals_bind]
  split_ifs with on
  · rw [Bool.and_eq_true, Bool.not_eq_true'] at on
    obtain ⟨dipOff, capOn⟩ := on
    dsimp only
    rw [Async.wp_assign_bind]
    cases fired : ((l.capDetector.observe now u.priceSol).check now u.priceSol).2 with
    | none => exact quiet dipOff capOn fired
    | some signal => exact fires dipOff capOn (by rw [fired]; rfl)
  · apply off
    rw [Bool.and_eq_true, Bool.not_eq_true'] at on
    cases dip : l.dipBuyDetector.enabled with
    | true => exact .inl rfl
    | false => exact .inr (Bool.eq_false_iff.mpr fun capOn => on ⟨dip, capOn⟩)

def SessionLocals.withChart (l : SessionLocals) (c : Chart) : SessionLocals :=
  { l with aggregator := c.aggregator, macd := c.macd }

theorem macdEntry_rule
    (crosses : Chart.crossing (l.chart.onTick u.priceSol now).2 = some .bullish →
      l.dipBuyDetector.enabled = false → l.capDetector.enabled = false →
      Async.wp (signalProtocol cfg) (gatedEntry cfg dryRun mint now .macd) Q g
        (l.withChart (l.chart.onTick u.priceSol now).1))
    (quiet : (Chart.crossing (l.chart.onTick u.priceSol now).2 = some .bullish →
      l.dipBuyDetector.enabled = true ∨ l.capDetector.enabled = true) →
      Q g (l.withChart (l.chart.onTick u.priceSol now).1) ()) :
    Async.wp (signalProtocol cfg) (macdEntry cfg dryRun mint now u) Q g l := by
  rw [macdEntry, Async.wp_locals_bind]
  simp only [SessionLocals.chart, Chart.onTick] at crosses quiet
  cases ticked : l.aggregator.onTick u.priceSol now with
  | mk aggregator closed =>
    rw [ticked] at crosses quiet
    dsimp only
    rw [Async.wp_assign_bind]
    cases closed with
    | none => exact quiet fun same => by cases same
    | some close =>
      dsimp only
      cases answered : l.macd.onClose close with
      | mk macd event =>
        simp only [answered] at crosses quiet
        rw [Async.wp_assign_bind]
        cases event with
        | warmup => exact quiet fun same => by cases same
        | noCross snapshot => exact quiet fun same => by cases same
        | crossover snapshot direction =>
          cases direction with
          | bearish => exact quiet fun same => by cases same
          | bullish =>
            dsimp only
            split_ifs with dip cap
            · exact quiet fun _ => .inl dip
            · exact quiet fun _ => .inr cap
            · exact crosses rfl (Bool.eq_false_iff.mpr dip) (Bool.eq_false_iff.mpr cap)

end Rules

/-- The detectors and indicators in use have seen these ticks, and no others. -/
structure SignalsFed (cfg : Market.Config) (start : Instant) (ticks : List (Instant × DipTick))
    (l : SessionLocals) : Prop where
  dipMode : l.dipBuyDetector.enabled = cfg.dipBuy.enabled
  capMode : l.capDetector.enabled = cfg.capitulation.enabled
  dip : cfg.dipBuy.enabled = true →
    l.dipBuyDetector = (DipBuyDetector.machine cfg.dipBuy start).after ticks
  cap : cfg.dipBuy.enabled = false → cfg.capitulation.enabled = true →
    l.capDetector = (CapitulationDetector.machine cfg.capitulation).after (ticks.map priced)
  chart : l.chart = (Chart.machine cfg.macd).after (ticks.map priced)

theorem fed_start {ev : MigrationEvent} {start : Instant} :
    SignalsFed cfg start [] (.start cfg ev start) where
  dipMode := rfl
  capMode := rfl
  dip _ := rfl
  cap _ _ := rfl
  chart := rfl

theorem SignalsFed.aside {start : Instant} {ticks : List (Instant × DipTick)} {l' : SessionLocals}
    (fed : SignalsFed cfg start ticks l) (same : l'.indicators = l.indicators) :
    SignalsFed cfg start ticks l' := by
  obtain ⟨dip, cap, chart⟩ := indicators_eq_iff.mp same
  obtain ⟨dipMode, capMode, dipSeen, capSeen, charted⟩ := fed
  constructor
  · rw [dip, dipMode]
  · rw [cap, capMode]
  · rwa [dip]
  · rwa [cap]
  · rwa [chart]

/-- A tick is dealt with: its entry is settled, and it has reached everything in use. -/
structure TickDone (cfg : Market.Config) (start : Instant) (ticks : List (Instant × DipTick))
    (g g' : SignalNotes) (l : SessionLocals) (x : Option Unit) : Prop where
  stays : x = none
  settled : g.Settled cfg g' l
  fed : SignalsFed cfg start ticks l

section Entries

variable {u : PriceUpdate} {start : Instant} {seen : List (Instant × DipTick)}

theorem SignalsFed.chart_append (fed : SignalsFed cfg start seen l) :
    (l.chart.onTick u.priceSol now).1 =
      (Chart.machine cfg.macd).after ((seen ++ [(now, u.dipTick)]).map priced) := by
  rw [fed.chart, List.map_append, List.map_singleton, Machine.after_append]
  rfl

theorem signals_dipBuy (on : cfg.dipBuy.enabled = true) (fed : SignalsFed cfg start seen l)
    (judged : g.judged = some (now, entrySignal cfg start seen (now, u.dipTick))) :
    Async.wp (signalProtocol cfg) (do
      dipBuyEntry cfg dryRun mint now u
      capitulationEntry cfg dryRun mint now u
      macdEntry cfg dryRun mint now u
      pure (none : Option Unit))
      (TickDone cfg start (seen ++ [(now, u.dipTick)]) g) g l := by
  have active : l.dipBuyDetector.enabled = true := fed.dipMode.trans on
  have answered : (l.dipBuyDetector.observe now u.priceSol u.poolSol).check now =
      (DipBuyDetector.machine cfg.dipBuy start).step
        ((DipBuyDetector.machine cfg.dipBuy start).after seen) (now, u.dipTick) := by
    rw [fed.dip on]
    rfl
  have still : ((l.dipBuyDetector.observe now u.priceSol u.poolSol).check now).1.enabled =
      cfg.dipBuy.enabled := by
    rw [DipBuyDetector.check_enabled, DipBuyDetector.observe_enabled, fed.dipMode]
  rw [entrySignal_dipBuy on, Machine.respond, ← answered] at judged
  have rest (g' : SignalNotes) (l' : SessionLocals) (settled : g.Settled cfg g' l')
      (same : l'.indicators = { l with dipBuyDetector :=
        ((l.dipBuyDetector.observe now u.priceSol u.poolSol).check now).1 }.indicators) :
      Async.wp (signalProtocol cfg) (do
        capitulationEntry cfg dryRun mint now u
        macdEntry cfg dryRun mint now u
        pure (none : Option Unit))
        (TickDone cfg start (seen ++ [(now, u.dipTick)]) g) g' l' := by
    obtain ⟨dip, cap, chart⟩ : l'.dipBuyDetector =
          ((l.dipBuyDetector.observe now u.priceSol u.poolSol).check now).1 ∧
        l'.capDetector = l.capDetector ∧ l'.chart = l.chart := indicators_eq_iff.mp same
    have mode : l'.dipBuyDetector.enabled = true := by rw [dip, still, on]
    refine Async.wp_bind.mpr (capitulationEntry_rule ?_ ?_ ?_)
    · intro _
      refine Async.wp_bind.mpr (macdEntry_rule ?_ ?_)
      · intro _ off
        rw [mode] at off
        cases off
      · intro _
        refine ⟨rfl, settled.charted rfl rfl, ?_, ?_, ?_, ?_, ?_⟩
        · exact mode.trans on.symm
        · rw [← fed.capMode, ← cap]
          rfl
        · intro _
          rw [Machine.after_append, ← answered]
          exact dip
        · intro off
          rw [on] at off
          cases off
        · rw [← fed.chart_append, ← chart]
          rfl
    · intro off
      rw [mode] at off
      cases off
    · intro off
      rw [mode] at off
      cases off
  refine Async.wp_bind.mpr (dipBuyEntry_rule ?_ ?_ ?_)
  · intro off
    rw [active] at off
    cases off
  · intro _ fired
    obtain ⟨signal, fired⟩ := Option.isSome_iff_exists.mp fired
    rw [fired] at judged
    refine Async.wp_mono _ (signals_gatedEntry judged) ?_
    exact fun g' l' _ here => rest g' l' here.1 here.2
  · intro _ quiet
    rw [quiet] at judged
    refine rest _ _ (.inr ⟨rfl, ?_⟩) rfl
    rintro trigger ⟨now', same, _⟩
    cases judged.symm.trans same

theorem signals_capitulation (dipOff : cfg.dipBuy.enabled = false)
    (on : cfg.capitulation.enabled = true) (fed : SignalsFed cfg start seen l)
    (judged : g.judged = some (now, entrySignal cfg start seen (now, u.dipTick))) :
    Async.wp (signalProtocol cfg) (do
      dipBuyEntry cfg dryRun mint now u
      capitulationEntry cfg dryRun mint now u
      macdEntry cfg dryRun mint now u
      pure (none : Option Unit))
      (TickDone cfg start (seen ++ [(now, u.dipTick)]) g) g l := by
  have idle : l.dipBuyDetector.enabled = false := fed.dipMode.trans dipOff
  have active : l.capDetector.enabled = true := fed.capMode.trans on
  have answered : (l.capDetector.observe now u.priceSol).check now u.priceSol =
      (CapitulationDetector.machine cfg.capitulation).step
        ((CapitulationDetector.machine cfg.capitulation).after (seen.map priced))
        (priced (now, u.dipTick)) := by
    rw [fed.cap dipOff on]
    rfl
  have still : ((l.capDetector.observe now u.priceSol).check now u.priceSol).1.enabled =
      cfg.capitulation.enabled := by
    rw [CapitulationDetector.check_enabled, CapitulationDetector.observe_enabled, fed.capMode]
  rw [entrySignal_capitulation dipOff on, Machine.respond, ← answered] at judged
  have rest (g' : SignalNotes) (l' : SessionLocals) (settled : g.Settled cfg g' l')
      (same : l'.indicators = { l with capDetector :=
        ((l.capDetector.observe now u.priceSol).check now u.priceSol).1 }.indicators) :
      Async.wp (signalProtocol cfg) (do
        macdEntry cfg dryRun mint now u
        pure (none : Option Unit))
        (TickDone cfg start (seen ++ [(now, u.dipTick)]) g) g' l' := by
    obtain ⟨dip, cap, chart⟩ : l'.dipBuyDetector = l.dipBuyDetector ∧
        l'.capDetector = ((l.capDetector.observe now u.priceSol).check now u.priceSol).1 ∧
        l'.chart = l.chart := indicators_eq_iff.mp same
    have mode : l'.capDetector.enabled = true := by rw [cap, still, on]
    refine Async.wp_bind.mpr (macdEntry_rule ?_ ?_)
    · intro _ _ off
      rw [mode] at off
      cases off
    · intro _
      refine ⟨rfl, settled.charted rfl rfl, ?_, ?_, ?_, ?_, ?_⟩
      · rw [← fed.dipMode, ← dip]
        rfl
      · exact mode.trans on.symm
      · intro on
        rw [dipOff] at on
        cases on
      · intro _ _
        rw [List.map_append, List.map_singleton, Machine.after_append, ← answered]
        exact cap
      · rw [← fed.chart_append, ← chart]
        rfl
  refine Async.wp_bind.mpr (dipBuyEntry_rule ?_ ?_ ?_)
  · intro _
    refine Async.wp_bind.mpr (capitulationEntry_rule ?_ ?_ ?_)
    · rw [idle, active]
      rintro (on | off)
      · cases on
      · cases off
    · intro _ _ fired
      obtain ⟨signal, fired⟩ := Option.isSome_iff_exists.mp fired
      rw [fired] at judged
      refine Async.wp_mono _ (signals_gatedEntry judged) ?_
      exact fun g' l' _ here => rest g' l' here.1 here.2
    · intro _ _ quiet
      rw [quiet] at judged
      refine rest _ _ (.inr ⟨rfl, ?_⟩) rfl
      rintro trigger ⟨now', same, _⟩
      cases judged.symm.trans same
  · intro active
    rw [idle] at active
    cases active
  · intro active
    rw [idle] at active
    cases active

theorem signals_macd (dipOff : cfg.dipBuy.enabled = false)
    (capOff : cfg.capitulation.enabled = false) (fed : SignalsFed cfg start seen l)
    (judged : g.judged = some (now, entrySignal cfg start seen (now, u.dipTick))) :
    Async.wp (signalProtocol cfg) (do
      dipBuyEntry cfg dryRun mint now u
      capitulationEntry cfg dryRun mint now u
      macdEntry cfg dryRun mint now u
      pure (none : Option Unit))
      (TickDone cfg start (seen ++ [(now, u.dipTick)]) g) g l := by
  have idle : l.dipBuyDetector.enabled = false := fed.dipMode.trans dipOff
  have idle' : l.capDetector.enabled = false := fed.capMode.trans capOff
  have answered : (l.chart.onTick u.priceSol now).2 =
      (Chart.machine cfg.macd).respond (seen.map priced) (priced (now, u.dipTick)) := by
    rw [fed.chart]
    rfl
  rw [entrySignal_macd dipOff capOff, ← answered] at judged
  have after : SignalsFed cfg start (seen ++ [(now, u.dipTick)])
      (l.withChart (l.chart.onTick u.priceSol now).1) := by
    constructor
    · exact fed.dipMode
    · exact fed.capMode
    · intro on
      rw [dipOff] at on
      cases on
    · intro _ on
      rw [capOff] at on
      cases on
    · exact fed.chart_append
  refine Async.wp_bind.mpr (dipBuyEntry_rule ?_ ?_ ?_)
  · intro _
    refine Async.wp_bind.mpr (capitulationEntry_rule ?_ ?_ ?_)
    · intro _
      refine Async.wp_bind.mpr (macdEntry_rule ?_ ?_)
      · intro crossed _ _
        rw [if_pos crossed] at judged
        refine Async.wp_mono _ (signals_gatedEntry judged) ?_
        exact fun g' l' _ here => ⟨rfl, here.1, after.aside here.2⟩
      · rw [idle, idle']
        intro uncrossed
        have flat : Chart.crossing (l.chart.onTick u.priceSol now).2 ≠ some .bullish := by
          intro crossed
          rcases uncrossed crossed with on | on
          · cases on
          · cases on
        rw [if_neg flat] at judged
        refine ⟨rfl, .inr ⟨rfl, ?_⟩, after⟩
        rintro trigger ⟨now', same, _⟩
        cases judged.symm.trans same
    · intro _ on
      rw [idle'] at on
      cases on
    · intro _ on
      rw [idle'] at on
      cases on
  · intro active
    rw [idle] at active
    cases active
  · intro active
    rw [idle] at active
    cases active

theorem signals_entries (fed : SignalsFed cfg start seen l)
    (judged : g.judged = some (now, entrySignal cfg start seen (now, u.dipTick))) :
    Async.wp (signalProtocol cfg) (do
      dipBuyEntry cfg dryRun mint now u
      capitulationEntry cfg dryRun mint now u
      macdEntry cfg dryRun mint now u
      pure (none : Option Unit))
      (TickDone cfg start (seen ++ [(now, u.dipTick)]) g) g l := by
  cases dip : cfg.dipBuy.enabled with
  | true => exact signals_dipBuy dip fed judged
  | false =>
    cases cap : cfg.capitulation.enabled with
    | true => exact signals_capitulation dip cap fed judged
    | false => exact signals_macd dip cap fed judged

end Entries

/-- A session at the head of its loop: every tick is judged, and no entry is due. -/
structure Ready (cfg : Market.Config) (g : SignalNotes) (l : SessionLocals) : Prop where
  fed : SignalsFed cfg g.start g.ticks l
  read : g.unread = none
  shut : ∀ trigger, ¬ g.Due cfg l trigger

def RoundJudged (cfg : Market.Config) (g : SignalNotes) (l : SessionLocals) : Option Unit → Prop
  | none => Ready cfg g l
  | some () => g.judged = none

theorem signals_sellForGood {pct : Position → ℚ} {reason : SellReason} (judged : g.judged = none) :
    Async.wp (signalProtocol cfg) (sellForGood cfg dryRun pct reason) (fun g' _ _ => g' = g)
      g l := by
  have calm : Async.Steady World (fun o => o.isTrading = true)
      (fun l' => l'.indicators = l.indicators) (sellForGood cfg dryRun pct reason) := by
    apply sellForGood_steady
    · exact fun o unwinding _ => isTrading_of_isUnwinding o unwinding
    · exact fun _ _ same inside => (indicators_aside same).trans inside
    · rfl
  exact Async.wp_mono _ (signals_trading judged calm) fun _ _ _ here => here.1

theorem signals_pnlExit {price : ℚ} (judged : g.judged = none) :
    Async.wp (signalProtocol cfg) (pnlExit cfg dryRun price)
      (fun g' l' _ => g' = g ∧ l'.indicators = l.indicators) g l := by
  apply signals_trading judged
  apply pnlExit_steady
  · exact fun o unwinding _ => isTrading_of_isUnwinding o unwinding
  · exact fun _ _ same inside => (indicators_aside same).trans inside

theorem signals_onTick {u : PriceUpdate} (fed : SignalsFed cfg g.start g.ticks l)
    (unread : g.unread = some u.dipTick) (judged : g.judged = none) :
    Async.wp (signalProtocol cfg) (onTick cfg dryRun mint u) (RoundJudged cfg) g l := by
  rw [onTick, Async.wp_assign_bind, Async.wp_locals_bind]
  dsimp only
  split
  · refine Async.wp_bind.mpr (Async.wp_mono _ (signals_sellForGood judged) ?_)
    rintro g' l' _ rfl
    exact judged
  · refine Async.wp_bind.mpr (Async.wp_mono _ (signals_pnlExit judged) ?_)
    rintro g' l' _ ⟨rfl, same⟩
    refine Async.wp_step trivial ?_ ?_
    · exact SignalNotes.permits_quiet judged (fun _ same => by cases same)
        (fun same => by cases same)
    · intro w now _
      have noted : (signalProtocol cfg).next g' w l' (.now .tick) now = { g' with
          unread := none
          ticks := g'.ticks ++ [(now, u.dipTick)]
          judged := some (now, entrySignal cfg g'.start g'.ticks (now, u.dipTick)) } := by
        change g'.judge cfg now = _
        rw [SignalNotes.judge, unread]
      rw [noted]
      have seen : SignalsFed cfg g'.start g'.ticks l' := fed.aside same
      refine Async.wp_mono _ (signals_entries seen rfl) ?_
      rintro g'' l'' x ⟨rfl, settled, fed⟩
      rcases settled with done | ⟨same, shut⟩
      · rw [done]
        exact ⟨fed, rfl, SignalNotes.not_due rfl⟩
      · rw [same]
        exact ⟨fed, rfl, shut⟩

theorem signals_sessionRound (ready : Ready cfg g l) :
    Async.wp (signalProtocol cfg) (sessionRound cfg dryRun mint) (RoundJudged cfg) g l := by
  rw [sessionRound]
  refine Async.wp_step trivial ?_ ?_
  · constructor
    · intro trigger
      constructor
      · intro call
        cases call
      · exact fun due => absurd due (ready.shut trigger)
    · exact fun _ _ => rfl
    · exact fun _ => ready.read
  · intro w event _
    cases event with
    | deadline => rfl
    | tick received =>
      cases received with
      | none => rfl
      | some sample => exact signals_onTick ready.fed rfl rfl

theorem permits_setup {o : Op} (setup : o.isSetup = true) (judged : g.judged = none) :
    g.Permits cfg l o := by
  apply SignalNotes.permits_quiet judged
  · rintro trigger rfl
    cases setup
  · rintro rfl
    cases setup

theorem signals_setup {o : Op} {f : Reply o → SessionM α}
    {Q : SignalNotes → SessionLocals → α → Prop} (setup : o.isSetup = true)
    (judged : g.judged = none)
    (rest : ∀ r, Async.wp (signalProtocol cfg) (f r) Q (g.next cfg o r) l) :
    Async.wp (signalProtocol cfg) (Async.perform o >>= f) Q g l :=
  Async.wp_step trivial (permits_setup setup judged) fun _ r _ => rest r

theorem signals_ahead {o : Op} (setup : o.isSetup = true)
    (unnoted : ∀ r, ({} : SignalNotes).next cfg o r = {}) :
    Async.Keeps (signalProtocol cfg) (fun g _ => g = {})
      (Async.perform o : SessionM (Reply o)) := by
  apply Async.Keeps.perform
  · exact fun _ _ _ => trivial
  · rintro g l rfl
    exact permits_setup setup rfl
  · rintro g w l r rfl _
    exact unnoted r

theorem signals_runSession :
    Async.wp (signalProtocol cfg) (runSession cfg dryRun mint) (fun _ _ _ => True) {} l := by
  rw [runSession]
  apply signals_setup rfl rfl
  intro sessionStart
  rw [Async.wp_locals_bind]
  apply signals_setup rfl rfl
  intro polled
  rw [Async.wp_assign_bind]
  apply signals_setup rfl rfl
  intro armed
  have ready : Ready cfg { start := sessionStart } (.start cfg l.event sessionStart) :=
    ⟨fed_start, rfl, SignalNotes.not_due rfl⟩
  refine Async.wp_bind.mpr (Async.wp_loop (Ready cfg) ready (fun _ _ _ => trivial) ?_)
  intro g l ready
  refine Async.wp_mono _ (signals_sessionRound ready) ?_
  intro g' l' x ends
  cases x with
  | none => exact ends
  | some left => exact Async.wp_mono _ (signals_sellForGood ends) fun _ _ _ _ => trivial

theorem signals_sessionTask :
    Async.wp (signalProtocol cfg) (sessionTask cfg dryRun) (fun _ _ _ => True) {} l := by
  apply sessionTask_wp (fun _ => signals_ahead rfl fun _ => rfl) (fun _ _ _ => trivial) ?_
    (fun _ => signals_ahead rfl fun _ => rfl) (fun _ _ _ _ here => here) rfl
  rintro mint g l _ rfl
  exact signals_runSession

end Walk

section Runs

variable {cfg : Market.Config} {dryRun : Bool} {start : Instant} {admits : GradAdmit}
  {pre post tr : GradTrace} {c : GradConfig} {i : Nat}

def signalNotes (cfg : Market.Config) (i : Nat) (tr : GradTrace) : SignalNotes :=
  ghost (signalProtocol cfg) {} i tr

theorem signals_pending (run : GradRun cfg dryRun start admits tr c) {l : SessionLocals} {o : Op}
    {resume : Reply o → TaskProc SessionLocals} (pending : c.tasks[i]? = some (.op l o resume)) :
    (signalNotes cfg i tr).Permits cfg l o := by
  have kept := graduation_protocol (signalProtocol cfg) (fun _ _ _ => True) {}
    (fun ev now => signals_sessionTask) ?_ run i _ pending
  · exact kept.2.1
  · intros
    trivial

theorem signals_permit (run : GradRun cfg dryRun start admits tr c) {w : World} {l : SessionLocals}
    {o : Op} {r : Reply o} (split : tr = pre ++ (w, .perform i l o r) :: post) :
    (signalNotes cfg i pre).Permits cfg l o := by
  obtain ⟨c₁, c₂, before, _, _, moved⟩ := run.upto pre w _ post split
  cases moved with
  | perform pending granted => exact signals_pending before pending

/-- What is judged is the last tick, behind all ticks before it. -/
def SignalNotes.Judging (cfg : Market.Config) (g : SignalNotes) : Prop :=
  ∀ now signal, g.judged = some (now, signal) → g.unread = none ∧
    ∃ seen tick, g.ticks = seen ++ [(now, tick)] ∧
      signal = entrySignal cfg g.start seen (now, tick)

theorem SignalNotes.judging_next {g : SignalNotes} {o : Op} {r : Reply o} :
    (g.next cfg o r).Judging cfg := by
  have done (g : SignalNotes) : g.done.Judging cfg := by
    intro now signal judged
    cases judged
  cases o with
  | now site =>
    cases site with
    | tick =>
      change (g.judge cfg r).Judging cfg
      rw [SignalNotes.judge]
      cases g.unread with
      | none => exact done g
      | some tick =>
        intro now signal judged
        cases judged
        exact ⟨rfl, g.ticks, tick, rfl, rfl⟩
    | sessionStart =>
      intro now signal judged
      cases judged
    | _ => exact done g
  | select =>
    cases r with
    | deadline => exact done g
    | tick received =>
      cases received with
      | none => exact done g
      | some sample =>
        intro now signal judged
        cases judged
  | _ => exact done g

theorem judging (cfg : Market.Config) (i : Nat) (tr : GradTrace) :
    (signalNotes cfg i tr).Judging cfg := by
  induction tr using List.reverseRecOn with
  | nil =>
    intro now signal judged
    cases judged
  | append_singleton tr x ih =>
    obtain ⟨w, e⟩ := x
    rcases e.own_or_aside i with ⟨l, o, r, rfl⟩ | aside
    · have noted : signalNotes cfg i (tr ++ [(w, .perform i l o r)]) =
          (signalNotes cfg i tr).next cfg o r := ghost_perform_self i tr w l o r
      rw [noted]
      exact SignalNotes.judging_next
    · have noted : signalNotes cfg i (tr ++ [(w, e)]) = signalNotes cfg i tr :=
        ghost_aside aside tr w
      rw [noted]
      exact ih

theorem SignalNotes.next_tick {g : SignalNotes} {l : SessionLocals} {o : Op} {r : Reply o}
    (permits : g.Permits cfg l o) :
    (g.next cfg o r).ticks.map Prod.snd ++ (g.next cfg o r).unread.toList =
      g.ticks.map Prod.snd ++ g.unread.toList ++ (tickOf o r).toList := by
  have quiet : g.ticks.map Prod.snd ++ g.unread.toList ++ ([] : List DipTick) =
      g.ticks.map Prod.snd ++ g.unread.toList := List.append_nil _
  cases o with
  | select =>
    have read := permits.reads rfl
    cases r with
    | deadline => exact quiet.symm
    | tick received =>
      cases received with
      | none => exact quiet.symm
      | some sample =>
        rw [read]
        simp [SignalNotes.next, SignalNotes.done, tickOf]
  | now site =>
    cases site with
    | tick =>
      change (g.judge cfg r).ticks.map Prod.snd ++ (g.judge cfg r).unread.toList = _ ++ []
      rw [SignalNotes.judge]
      cases waits : g.unread with
      | none => simp [SignalNotes.done, waits]
      | some tick => simp
    | _ => exact quiet.symm
  | _ => exact quiet.symm

theorem ticks_of_run (run : GradRun cfg dryRun start admits tr c) :
    (signalNotes cfg i tr).ticks.map Prod.snd ++ (signalNotes cfg i tr).unread.toList =
      events i tickOf tr := by
  have permits (pre : GradTrace) (w : World) (l : SessionLocals) (o : Op) (r : Reply o)
      (post : GradTrace) (split : tr = pre ++ (w, .perform i l o r) :: post) :
      (signalNotes cfg i pre).Permits cfg l o := signals_permit run split
  clear run
  induction tr using List.reverseRecOn with
  | nil => rfl
  | append_singleton tr x ih =>
    have before := ih fun pre w l o r post split =>
      permits pre w l o r (post ++ [x]) (by rw [split]; simp)
    obtain ⟨w, e⟩ := x
    rcases e.own_or_aside i with ⟨l, o, r, rfl⟩ | aside
    · have noted : signalNotes cfg i (tr ++ [(w, .perform i l o r)]) =
          (signalNotes cfg i tr).next cfg o r := ghost_perform_self i tr w l o r
      rw [noted, SignalNotes.next_tick (permits tr w l o r [] rfl), before, events_self]
    · have noted : signalNotes cfg i (tr ++ [(w, e)]) = signalNotes cfg i tr :=
        ghost_aside aside tr w
      rw [noted, before, events_aside aside]

end Runs

/-- The entry that a step calls, with the session and its locals. -/
def entryCalled : GradLabel → Option (Nat × SessionLocals × EntryTrigger)
  | .perform i l (.call (.tryBuy trigger)) _ => some (i, l, trigger)
  | _ => none

theorem eq_of_entryCalled {e : GradLabel} {i : Nat} {l : SessionLocals} {trigger : EntryTrigger}
    (h : entryCalled e = some (i, l, trigger)) : e = .perform i l (.call (.tryBuy trigger)) () := by
  unfold entryCalled at h
  split at h
  · cases h
    rfl
  · cases h

end HadesPsTrader.Tasks
