/- Module: HadesPsTrader/Runs/MacdWindow
   source: src/session.rs, src/main.rs
   digest: Where the startup check warns, no session buys on the MACD inside its window. -/

import HadesPsTrader.Market.MacdWarmup
import HadesPsTrader.Runs.Graduation
import HadesPsTrader.Runs.SessionPieces
import HadesPsTrader.Runs.SessionWalk

set_option autoImplicit false
set_option relaxedAutoImplicit false

namespace HadesPsTrader.Tasks

open HadesPsTrader.Market HadesPsTrader.Chain HadesPsTrader.Interaction

/-- What is noted of the clock of a session: when it started, and the reading of its last tick (of
its start, before the first). -/
structure MonitorNotes where
  start : Option Instant := none
  tick : Instant := 0

def MonitorNotes.next (g : MonitorNotes) : (o : Op) → Reply o → MonitorNotes
  | .now .sessionStart, t => { start := some t, tick := t }
  | .now .tick, t => { g with tick := t }
  | _, _ => g

def SessionLocals.chart (l : SessionLocals) : Chart := ⟨l.aggregator, l.macd⟩

/-- The indicators are fresh, or paced since the start of the session up to its deadline. -/
structure Charted (cfg : Market.Config) (g : MonitorNotes) (l : SessionLocals) : Prop where
  fresh : g.start = none → l.chart = .new cfg.macd
  paced : ∀ s, g.start = some s → s ≤ g.tick ∧ (g.tick < s + fromSecs cfg.trading.maxMonitorTime →
    ∃ closes, l.chart.Paced cfg.macd s g.tick closes)

/-- The deadline of the session is past at its last tick. -/
def MonitorNotes.Late (cfg : Market.Config) (g : MonitorNotes) : Prop :=
  ∃ s, g.start = some s ∧ s + fromSecs cfg.trading.maxMonitorTime ≤ g.tick

/-- A session calls `try_buy` on the MACD at a late tick only. -/
def monitorProtocol (cfg : Market.Config) : Protocol MonitorNotes World SessionLocals Op Reply where
  coherent g l := Charted cfg g l
  guard g _ o := o = .call (.tryBuy .macd) → g.Late cfg
  valid g _ _ o r := match o, r with
    | .now .tick, t => g.tick ≤ t
    | _, _ => True
  next g _ _ o r := g.next o r

section Session

variable {cfg : Market.Config} {dryRun : Bool} {g : MonitorNotes} {l : SessionLocals}
  {mint : Pubkey} {u : PriceUpdate} {now s : Instant} {α : Type}

theorem Charted.aside {l' : SessionLocals} (same : l'.untraded = l.untraded)
    (charted : Charted cfg g l) : Charted cfg g l' := by
  have untraded (l : SessionLocals) : l.untraded.chart = l.chart := rfl
  have chart : l'.chart = l.chart := by rw [← untraded, same, untraded]
  exact ⟨fun unstarted => chart.trans (charted.fresh unstarted), chart ▸ charted.paced⟩

/-- The operations of a piece that trades, and may enter on one trigger. -/
def Op.tradesOn (trigger : EntryTrigger) (o : Op) : Prop :=
  o.isTrading = true ∨ o = .call (.tryBuy trigger)

theorem MonitorNotes.next_trades {trigger : EntryTrigger} {o : Op} {r : Reply o}
    (trades : o.tradesOn trigger) : g.next o r = g := by
  rcases trades with trading | rfl
  · cases o with
    | now site =>
      cases site with
      | sessionStart => cases trading
      | tick => cases trading
      | _ => rfl
    | _ => rfl
  · rfl

theorem charted_trades {trigger : EntryTrigger} {m : SessionM α}
    (calm : Async.Steady World (Op.tradesOn trigger) (Charted cfg g) m)
    (permitted : trigger = .macd → g.Late cfg) (charted : Charted cfg g l) :
    Async.wp (monitorProtocol cfg) m (fun g' l' _ => g' = g ∧ Charted cfg g l') g l := by
  refine calm.wp charted (fun _ inside => inside) ?_ ?_ fun _ _ inside => ⟨rfl, inside⟩
  · rintro l' o _ trades rfl
    rcases trades with trading | same
    · cases trading
    · cases same
      exact permitted rfl
  · intro w l' o r trades
    exact MonitorNotes.next_trades trades

theorem charted_dipBuyEntry (charted : Charted cfg g l) :
    Async.wp (monitorProtocol cfg) (dipBuyEntry cfg dryRun mint now u)
      (fun g' l' _ => g' = g ∧ Charted cfg g l') g l := by
  apply charted_trades _ _ charted
  · exact .dipBuy
  · apply dipBuyEntry_steady
    · exact fun _ trading _ => .inl trading
    · exact fun _ _ => Charted.aside
    · exact .inr rfl
    · exact fun _ _ inside => ⟨inside.fresh, inside.paced⟩
  · rintro ⟨⟩

theorem charted_capitulationEntry (charted : Charted cfg g l) :
    Async.wp (monitorProtocol cfg) (capitulationEntry cfg dryRun mint now u)
      (fun g' l' _ => g' = g ∧ Charted cfg g l') g l := by
  apply charted_trades _ _ charted
  · exact .capitulation
  · apply capitulationEntry_steady
    · exact fun _ trading _ => .inl trading
    · exact fun _ _ => Charted.aside
    · exact .inr rfl
    · exact fun _ _ inside => ⟨inside.fresh, inside.paced⟩
  · rintro ⟨⟩

variable (warned : cfg.macdNeverSignals)

include warned in
theorem Charted.onTick (charted : Charted cfg g l) (begun : g.start = some s) (price : ℚ) :
    (∀ l' : SessionLocals, l'.chart = (l.chart.onTick price g.tick).1 → Charted cfg g l') ∧
      ((Chart.crossing (l.chart.onTick price g.tick).2).isSome → g.Late cfg) := by
  obtain ⟨started, paced⟩ := charted.paced s begun
  by_cases early : g.tick < s + fromSecs cfg.trading.maxMonitorTime
  · obtain ⟨closes, paced⟩ := paced early
    obtain ⟨kept, quiet⟩ := paced.quiet warned price started le_rfl early
    constructor
    · intro l' chart
      refine ⟨?_, ?_⟩
      · intro unstarted
        rw [begun] at unstarted
        cases unstarted
      · intro s' begun'
        cases begun.symm.trans begun'
        exact ⟨started, fun _ => chart ▸ kept⟩
    · intro crossed
      rw [quiet] at crossed
      cases crossed
  · constructor
    · intro l' _
      refine ⟨?_, ?_⟩
      · intro unstarted
        rw [begun] at unstarted
        cases unstarted
      · intro s' begun'
        cases begun.symm.trans begun'
        exact ⟨started, fun early' => absurd early' early⟩
    · intro _
      exact ⟨s, begun, not_lt.mp early⟩

include warned in
theorem charted_macdEntry (charted : Charted cfg g l) (begun : g.start = some s)
    (read : g.tick = now) :
    Async.wp (monitorProtocol cfg) (macdEntry cfg dryRun mint now u)
      (fun g' l' _ => g' = g ∧ Charted cfg g l') g l := by
  obtain ⟨kept, late⟩ := charted.onTick warned begun u.priceSol
  rw [read] at kept late
  rw [macdEntry, Async.wp_locals_bind]
  rw [SessionLocals.chart, Chart.onTick] at kept late
  dsimp only at kept late
  generalize l.aggregator.onTick u.priceSol now = ticked at kept late ⊢
  obtain ⟨aggregator, closed⟩ := ticked
  dsimp only at kept late ⊢
  rw [Async.wp_assign_bind]
  cases closed with
  | none => exact ⟨rfl, kept _ rfl⟩
  | some close =>
    dsimp only at kept late ⊢
    generalize l.macd.onClose close = answered at kept late ⊢
    obtain ⟨macd, event⟩ := answered
    dsimp only at kept late ⊢
    rw [Async.wp_assign_bind]
    have here := kept { l with aggregator := aggregator, macd := macd } rfl
    cases event with
    | warmup => exact ⟨rfl, here⟩
    | noCross snapshot => exact ⟨rfl, here⟩
    | crossover snapshot direction =>
      cases direction with
      | bearish => exact ⟨rfl, here⟩
      | bullish =>
        dsimp only
        split_ifs
        · exact ⟨rfl, here⟩
        · exact ⟨rfl, here⟩
        · apply charted_trades _ (fun _ => late rfl) here
          · exact .macd
          · apply gatedEntry_steady
            · exact fun _ trading _ => .inl trading
            · exact fun _ _ => Charted.aside
            · exact .inr rfl

theorem charted_pnlExit {price : ℚ} (charted : Charted cfg g l) :
    Async.wp (monitorProtocol cfg) (pnlExit cfg dryRun price)
      (fun g' l' _ => g' = g ∧ Charted cfg g l') g l := by
  apply charted_trades _ _ charted
  · exact .dipBuy
  · apply pnlExit_steady
    · exact fun o unwinding _ => .inl (isTrading_of_isUnwinding o unwinding)
    · exact fun _ _ => Charted.aside
  · rintro ⟨⟩

theorem charted_sellForGood {pct : Position → ℚ} {reason : SellReason}
    (charted : Charted cfg g l) :
    Async.wp (monitorProtocol cfg) (sellForGood cfg dryRun pct reason)
      (fun g' l' _ => g' = g ∧ Charted cfg g l') g l := by
  apply charted_trades _ _ charted
  · exact .dipBuy
  · apply sellForGood_steady
    · exact fun o unwinding _ => .inl (isTrading_of_isUnwinding o unwinding)
    · exact fun _ _ => Charted.aside
    · exact .inl rfl
  · rintro ⟨⟩

theorem Charted.read (charted : Charted cfg g l) (later : g.tick ≤ now) :
    Charted cfg { g with tick := now } l := by
  refine ⟨charted.fresh, ?_⟩
  intro s begun
  obtain ⟨started, paced⟩ := charted.paced s begun
  refine ⟨started.trans later, ?_⟩
  intro early
  obtain ⟨closes, paced⟩ := paced (later.trans_lt early)
  exact ⟨closes, paced.mono later⟩

/-- A session that has started, with its indicators charted. -/
def Monitors (cfg : Market.Config) (g : MonitorNotes) (l : SessionLocals) : Prop :=
  Charted cfg g l ∧ ∃ s, g.start = some s

include warned in
theorem charted_onTick (monitors : Monitors cfg g l) :
    Async.wp (monitorProtocol cfg) (onTick cfg dryRun mint u)
      (fun g' l' _ => Monitors cfg g' l') g l := by
  obtain ⟨charted, s, begun⟩ := monitors
  rw [onTick, Async.wp_assign_bind, Async.wp_locals_bind]
  have here : Charted cfg g { l with
      lastPrice := some u.priceSol
      rugGuard := l.rugGuard.observe u.priceSol u.poolSol } := ⟨charted.fresh, charted.paced⟩
  split
  · refine Async.wp_bind.mpr (Async.wp_mono _ (charted_sellForGood here) ?_)
    rintro g' l' _ ⟨rfl, charted'⟩
    exact ⟨charted', s, begun⟩
  · refine Async.wp_bind.mpr (Async.wp_mono _ (charted_pnlExit here) ?_)
    rintro g' l' _ ⟨rfl, charted'⟩
    refine Async.wp_step charted' nofun ?_
    intro w now later
    have read : Charted cfg { g' with tick := now } l' := charted'.read later
    refine Async.wp_bind.mpr (Async.wp_mono _ (charted_dipBuyEntry read) ?_)
    rintro g'' l'' _ ⟨rfl, dipped⟩
    refine Async.wp_bind.mpr (Async.wp_mono _ (charted_capitulationEntry dipped) ?_)
    rintro g'' l'' _ ⟨rfl, capped⟩
    refine Async.wp_bind.mpr (Async.wp_mono _ (charted_macdEntry warned capped begun rfl) ?_)
    rintro g'' l'' _ ⟨rfl, entered⟩
    exact ⟨entered, s, begun⟩

include warned in
theorem charted_sessionRound (monitors : Monitors cfg g l) :
    Async.wp (monitorProtocol cfg) (sessionRound cfg dryRun mint)
      (fun g' l' _ => Monitors cfg g' l') g l := by
  refine Async.wp_step monitors.1 nofun ?_
  intro w event _
  match event with
  | .deadline => exact monitors
  | .tick none => exact monitors
  | .tick (some sample) => exact charted_onTick warned monitors

theorem charted_unstarted (fresh : l.chart = .new cfg.macd) (unstarted : g.start = none) :
    Charted cfg g l := by
  refine ⟨fun _ => fresh, ?_⟩
  intro s begun
  rw [unstarted] at begun
  cases begun

include warned in
theorem charted_runSession (fresh : l.chart = .new cfg.macd) (unstarted : g.start = none) :
    Async.wp (monitorProtocol cfg) (runSession cfg dryRun mint)
      (fun g' l' _ => Charted cfg g' l') g l := by
  -- fresh indicators are charted whenever the session starts
  have begins (l' : SessionLocals) (s : Instant) (chart : l'.chart = .new cfg.macd) :
      Charted cfg { start := some s, tick := s } l' := by
    refine ⟨fun _ => chart, ?_⟩
    rintro s' ⟨⟩
    exact ⟨le_rfl, fun _ => ⟨0, chart ▸ Chart.paced_new _ _ _⟩⟩
  refine Async.wp_step (charted_unstarted fresh unstarted) nofun ?_
  intro w sessionStart _
  rw [Async.wp_locals_bind]
  refine Async.wp_step (begins l sessionStart fresh) nofun ?_
  intro w _ _
  rw [Async.wp_assign_bind]
  have started := begins (.start cfg l.event sessionStart) sessionStart rfl
  refine Async.wp_step started nofun ?_
  intro w _ _
  refine Async.wp_bind.mpr (Async.wp_loop (Monitors cfg) ⟨started, sessionStart, rfl⟩
    (fun _ _ monitors => monitors.1) ?_)
  intro g' l' monitors
  refine Async.wp_mono _ (charted_sessionRound warned monitors) ?_
  intro g'' l'' x monitors'
  cases x with
  | none => exact monitors'
  | some left =>
    rw [Async.wp_locals_bind]
    refine Async.wp_mono _ (charted_sellForGood monitors'.1) ?_
    rintro g₃ l₃ _ ⟨rfl, sold⟩
    exact sold

theorem charted_ahead {o : Op} (untraded : o ≠ .call (.tryBuy .macd))
    (unnoted : ∀ (g : MonitorNotes) r, g.next o r = g) :
    Async.Keeps (monitorProtocol cfg) (fun g l => l.chart = .new cfg.macd ∧ g.start = none)
      (Async.perform o : SessionM (Reply o)) := by
  apply Async.Keeps.perform
  · exact fun _ _ here => charted_unstarted here.1 here.2
  · exact fun _ _ _ called => absurd called untraded
  · intro g w l r here _
    change l.chart = _ ∧ (g.next o r).start = none
    rw [unnoted]
    exact here

include warned in
theorem charted_sessionTask (ev : MigrationEvent) (t : Instant) :
    Proc.wp (monitorProtocol cfg) (sessionTask cfg dryRun (.start cfg ev t))
      (fun g' l' _ => Charted cfg g' l') {} := by
  apply sessionTask_wp (fun _ => charted_ahead nofun fun _ _ => rfl)
    (fun _ _ here => charted_unstarted here.1 here.2) ?_
    (fun _ => charted_ahead nofun fun _ _ => rfl) (fun _ _ _ _ here => here) ⟨rfl, rfl⟩
  exact fun _ _ _ _ here => charted_runSession warned here.1 here.2

end Session

def monitorNotes (cfg : Market.Config) (i : Nat) (tr : GradTrace) : MonitorNotes :=
  ghost (monitorProtocol cfg) {} i tr

section Runs

variable {cfg : Market.Config} {dryRun : Bool} {start : Instant} {admits : GradAdmit}
  {tr : GradTrace} {c : GradConfig}

theorem monitorNotes_tick_le (run : GradRun cfg dryRun start admits tr c) (i : Nat) :
    (monitorNotes cfg i tr).tick ≤ c.shared.clock := by
  apply run.watched (monitorProtocol cfg) {} i fun g w => g.tick ≤ w.clock
  · exact Nat.zero_le _
  · intro g w w' l o r before granted
    have granted : w.perform i o r = some w' := granted
    have kept : g.tick ≤ w'.clock := before.trans (World.perform_clock granted).1.ge
    cases o with
    | now site =>
      obtain ⟨rfl, rfl⟩ := World.perform_now.mp granted
      cases site with
      | sessionStart => exact le_rfl
      | tick => exact le_rfl
      | _ => exact kept
    | _ => exact kept
  · intro g c e c' before moved
    exact before.trans (step_clock moved)

theorem sessions_monitored (warned : cfg.macdNeverSignals)
    (run : GradRun cfg dryRun start admits tr c) {i : Nat} {t : TaskProc SessionLocals}
    (here : c.tasks[i]? = some t) :
    Proc.wp (monitorProtocol cfg) t (fun g l _ => Charted cfg g l) (monitorNotes cfg i tr) := by
  refine graduation_protocol (monitorProtocol cfg) _ {} (charted_sessionTask warned) ?_ run i t here
  · intro tr c before i l o r w' granted
    cases o with
    | now site =>
      cases site with
      | tick =>
        obtain ⟨read, -⟩ := World.perform_now.mp granted
        have noted := monitorNotes_tick_le before i
        rw [← read] at noted
        exact noted
      | _ => trivial
    | _ => trivial

end Runs

/-- Where the startup check warns that the MACD will never produce signals, no close before the
deadline is reported as a crossover, whatever the ticks, and no session of a run calls `try_buy` on
the MACD at a tick that it read before its deadline. -/
theorem macd_silent_inside_window (cfg : Market.Config) (dryRun : Bool)
    (warned : cfg.macdNeverSignals) :
    (∀ (f : Market.Feed ℚ) (sessionStart : Instant), sessionStart ≤ f.time 0 → ∀ n,
      f.time n < sessionStart + fromSecs cfg.trading.maxMonitorTime → ∀ snapshot direction,
        (Chart.machine cfg.macd).answer f.tick n ≠ some (.crossover snapshot direction)) ∧
    ∀ (start : Instant) (tr : GradTrace) (c : GradConfig), GradRun cfg dryRun start always tr c →
      ∀ i l resume, c.tasks[i]? = some (.op l (.call (.tryBuy .macd)) resume) →
        ∃ sessionStart, (monitorNotes cfg i tr).start = some sessionStart ∧
          sessionStart + fromSecs cfg.trading.maxMonitorTime ≤ (monitorNotes cfg i tr).tick := by
  constructor
  · intro f sessionStart started n early snapshot direction reported
    have silent := Chart.no_crossing_before_deadline warned f started n early
    rw [reported] at silent
    cases silent
  · intro start tr c run i l resume calling
    exact (sessions_monitored warned run calling).2.1 rfl

theorem macd_silent_in_half_hour :
    (∀ (f : Market.Feed ℚ) (sessionStart : Instant), sessionStart ≤ f.time 0 → ∀ n,
      f.time n < sessionStart + fromSecs 1800 → ∀ snapshot direction,
        (Chart.machine eager.macd).answer f.tick n ≠ some (.crossover snapshot direction)) ∧
    ∀ (start : Instant) (tr : GradTrace) (c : GradConfig),
      GradRun { eager with trading := { eager.trading with maxMonitorTime := 1800 } } false start
        always tr c →
      ∀ i l resume, c.tasks[i]? = some (.op l (.call (.tryBuy .macd)) resume) →
        ∃ sessionStart, (monitorNotes { eager with
            trading := { eager.trading with maxMonitorTime := 1800 } } i tr).start =
              some sessionStart ∧
          sessionStart + fromSecs 1800 ≤ (monitorNotes { eager with
            trading := { eager.trading with maxMonitorTime := 1800 } } i tr).tick :=
  macd_silent_inside_window
    { eager with trading := { eager.trading with maxMonitorTime := 1800 } } false (by decide)

end HadesPsTrader.Tasks
