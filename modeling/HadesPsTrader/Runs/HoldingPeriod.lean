/- Module: HadesPsTrader/Runs/HoldingPeriod
   source: src/session.rs, src/position.rs
   digest: The exits that a session gives its position over the whole holding period. -/

import HadesPsTrader.Market.ExitRules
import HadesPsTrader.Runs.Graduation
import HadesPsTrader.Runs.SessionWalk

set_option autoImplicit false
set_option relaxedAutoImplicit false

namespace HadesPsTrader.Tasks

open HadesPsTrader.Market HadesPsTrader.Chain HadesPsTrader.Interaction

structure HoldNotes where
  holding : Holding := {}
  /-- The price of a tick received with the position open, until its age is read. -/
  heard : Option ℚ := none
  /-- The last operation read the clock for an exit decision. -/
  judged : Bool := false
  /-- The exit whose sell is tried. -/
  asked : Option ExitReason := none
  /-- The exits of this holding period whose sells failed. -/
  failed : List ExitReason := []

def SellReason.exit? : SellReason → Option ExitReason
  | .exit reason => some reason
  | _ => none

/-- The clock reading that precedes an exit decision. -/
def Op.readsAge : Op → Bool
  | .now .exitAge => true
  | _ => false

namespace HoldNotes

variable (cfg : Market.Config) (dryRun : Bool)

def entry (g : HoldNotes) (l : SessionLocals) : (o : Op) → Reply o → HoldNotes
  | .select, .tick (some sample) =>
      { g with heard := l.position.map fun _ => sample.update.priceSol }
  | .now .boughtAt, t => { g with
      holding := { boughtAt := t, trigger := (l.buying.map BuyFrame.trigger).getD .macd }
      failed := [] }
  | .notify (.bought _ _ _ _ _ entryPriceSol), _ =>
      { g with holding := { g.holding with entryPriceSol := entryPriceSol } }
  | .now .exitAge, t => { g with holding := g.holding.seen (g.heard.getD 0) t, heard := none }
  | .call (.trySell reason), _ => { g with asked := reason.exit? }
  | .sellAll p, answers =>
      if soldOk cfg dryRun p answers then g else { g with failed := g.failed ++ g.asked.toList }
  | _, _ => g

def next (g : HoldNotes) (l : SessionLocals) (o : Op) (r : Reply o) : HoldNotes :=
  { g.entry cfg dryRun l o r with judged := o.readsAge }

/-- The exits given at these ticks have failed to sell. -/
def Survived (g : HoldNotes) (ticks : List (ℚ × Instant)) : Prop :=
  ∀ before x, before ++ [x] <+: ticks →
    ∀ reason, { g.holding with ticks := before ++ [x] }.Gives cfg (some reason) →
      reason ∈ g.failed

structure Permits (g : HoldNotes) (l : SessionLocals) (o : Op) : Prop where
  /-- Once the age is read, it exits by the first rule that holds, or goes on when none holds. -/
  decided : g.judged = true →
    (∀ reason, g.holding.Gives cfg (some reason) ↔ o = .call (.trySell (.exit reason))) ∧
      (g.holding.Gives cfg none ↔ o = .now .tick)
  /-- No tick is passed over, neither before the entries nor before the next event. -/
  heeded : o = .now .tick ∨ o = .select → g.heard = none
  /-- It exits once the age is read, and when all exits before have failed to sell. -/
  exits : ∀ reason, o = .call (.trySell (.exit reason)) →
    g.judged = true ∧ g.Survived cfg g.holding.ticks.dropLast
  /-- After a tick its record of the position is up to date: taken for the sale, or kept. -/
  taken : ∀ reason, o = .call (.trySell (.exit reason)) →
    ∃ pos, l.selling = some pos ∧ g.holding.Tracks pos
  tracked : o = .now .tick ∨ o = .select →
    ∀ pos, l.position = some pos → g.holding.Tracks pos
  /-- It looks at a position on a tick, and when all exits before have failed to sell. -/
  survived : o = .now .exitAge →
    g.heard.isSome ∧ l.position.isSome ∧ g.Survived cfg g.holding.ticks

end HoldNotes

def holdProtocol (cfg : Market.Config) (dryRun : Bool) :
    Protocol HoldNotes World SessionLocals Op Reply where
  coherent _ _ := True
  guard g l o := g.Permits cfg l o
  valid _ _ _ _ _ := True
  next g _ l o r := g.next cfg dryRun l o r

def Op.isOrdinary : Op → Bool
  | .call (.trySell _) => false
  | .now .boughtAt => false
  | .now .exitAge => false
  | .now .tick => false
  | .notify (.bought ..) => false
  | .sellAll _ => false
  | .select => false
  | _ => true

section Walk

variable {cfg : Market.Config} {dryRun : Bool} {α : Type} {g : HoldNotes} {l : SessionLocals}
  {mint : Pubkey} {now : Instant} {u : PriceUpdate}

namespace HoldNotes

theorem next_ordinary {o : Op} {r : Reply o} (unjudged : g.judged = false)
    (ordinary : o.isOrdinary = true) : g.next cfg dryRun l o r = g := by
  have same (h : g.entry cfg dryRun l o r = g) (age : o.readsAge = false) :
      g.next cfg dryRun l o r = g := by
    rw [next, h, age, ← unjudged]
  cases o with
  | call c =>
      cases c with
      | trySell reason => cases ordinary
      | _ => exact same rfl rfl
  | now site =>
      cases site with
      | sessionStart => exact same rfl rfl
      | spendCheck => exact same rfl rfl
      | soldAt => exact same rfl rfl
      | _ => cases ordinary
  | notify n =>
      cases n with
      | bought => cases ordinary
      | _ => exact same rfl rfl
  | sellAll p => cases ordinary
  | select => cases ordinary
  | _ => exact same rfl rfl

theorem next_sellAll {p : SellAllParams} {answers : Nat → SubmitAnswers} :
    (g.next cfg dryRun l (.sellAll p) answers).holding = g.holding ∧
      (g.next cfg dryRun l (.sellAll p) answers).failed =
        g.failed ++ (if soldOk cfg dryRun p answers then [] else g.asked.toList) ∧
      (g.next cfg dryRun l (.sellAll p) answers).heard = g.heard := by
  rw [next, entry]
  split_ifs
  · exact ⟨rfl, (List.append_nil _).symm, rfl⟩
  · exact ⟨rfl, rfl, rfl⟩

theorem permits_of_unjudged {o : Op} (unjudged : g.judged = false)
    (no_exit : ∀ reason, o ≠ .call (.trySell (.exit reason)))
    (heeded : o = .now .tick ∨ o = .select → g.heard = none)
    (tracked : o = .now .tick ∨ o = .select →
      ∀ pos, l.position = some pos → g.holding.Tracks pos)
    (survived : o = .now .exitAge →
      g.heard.isSome ∧ l.position.isSome ∧ g.Survived cfg g.holding.ticks) :
    g.Permits cfg l o := by
  refine ⟨?_, heeded, ?_, ?_, tracked, survived⟩
  · intro judged
    rw [unjudged] at judged
    cases judged
  · exact fun reason same => absurd same (no_exit reason)
  · exact fun reason same => absurd same (no_exit reason)

theorem permits_of_apart {o : Op} (unjudged : g.judged = false)
    (no_exit : ∀ reason, o ≠ .call (.trySell (.exit reason)))
    (apart : o ≠ .now .tick ∧ o ≠ .select ∧ o ≠ .now .exitAge) : g.Permits cfg l o := by
  obtain ⟨not_tick, not_select, not_age⟩ := apart
  apply permits_of_unjudged unjudged no_exit
  · exact fun same => absurd same (not_or.mpr ⟨not_tick, not_select⟩)
  · exact fun same => absurd same (not_or.mpr ⟨not_tick, not_select⟩)
  · exact fun same => absurd same not_age

theorem permits_of_ordinary {o : Op} (unjudged : g.judged = false)
    (ordinary : o.isOrdinary = true ∨ o = .now .boughtAt ∨ (∃ n, o = .notify n) ∨
      ∃ p, o = .sellAll p) : g.Permits cfg l o := by
  apply permits_of_apart unjudged
  · rintro reason rfl
    simp [Op.isOrdinary] at ordinary
  · refine ⟨?_, ?_, ?_⟩
    all_goals
      rintro rfl
      simp [Op.isOrdinary] at ordinary

end HoldNotes

structure Follows (cfg : Market.Config) (g : HoldNotes) (pos : Position) : Prop where
  tracks : g.holding.Tracks pos
  priced : 0 ≤ g.holding.entryPriceSol
  survived : g.Survived cfg g.holding.ticks

structure Kept (cfg : Market.Config) (g : HoldNotes) (l : SessionLocals) : Prop where
  unjudged : g.judged = false
  follows : ∀ pos, l.position = some pos → Follows cfg g pos

theorem Kept.of_closed (unjudged : g.judged = false) (closed : l.position = none) :
    Kept cfg g l := by
  refine ⟨unjudged, ?_⟩
  intro pos opened
  rw [closed] at opened
  cases opened

theorem Kept.aside {l' : SessionLocals} (same : l'.position = l.position) (kept : Kept cfg g l) :
    Kept cfg g l' :=
  ⟨kept.unjudged, fun pos opened => kept.follows pos (same ▸ opened)⟩

theorem Kept.heard (kept : Kept cfg g l) (heard : Option ℚ) :
    Kept cfg { g with heard := heard, judged := false } l := by
  refine ⟨rfl, ?_⟩
  intro pos opened
  obtain ⟨tracks, priced, survived⟩ := kept.follows pos opened
  exact ⟨tracks, priced, survived⟩

structure Rested (cfg : Market.Config) (g : HoldNotes) (l : SessionLocals) : Prop where
  kept : Kept cfg g l
  heeded : g.heard = none

theorem Rested.aside {l' : SessionLocals} (same : l'.position = l.position)
    (rested : Rested cfg g l) : Rested cfg g l' :=
  ⟨rested.kept.aside same, rested.heeded⟩

variable (cfg dryRun) in
abbrev HoldsOn (m : SessionM α) : Prop :=
  Async.Keeps (holdProtocol cfg dryRun) (Rested cfg) m

theorem hold_step {o : Op} {f : Reply o → SessionM α} {Q : HoldNotes → SessionLocals → α → Prop}
    (unjudged : g.judged = false) (ordinary : o.isOrdinary = true)
    (answered : ∀ r, Async.wp (holdProtocol cfg dryRun) (f r) Q g l) :
    Async.wp (holdProtocol cfg dryRun) (Async.perform o >>= f) Q g l := by
  apply Async.wp_step
  · trivial
  · exact HoldNotes.permits_of_ordinary unjudged (.inl ordinary)
  · intro w r _
    have same : (holdProtocol cfg dryRun).next g w l o r = g :=
      HoldNotes.next_ordinary unjudged ordinary
    rw [same]
    exact answered r

theorem hold_traderSellAll {p : SellAllParams}
    {f : Except BoxError (Option Signature) → SessionM α} {Q : HoldNotes → SessionLocals → α → Prop}
    (unjudged : g.judged = false)
    (answered : ∀ g' res, g'.judged = false → g'.holding = g.holding →
      g'.failed = g.failed ++ (if res.isOk then [] else g.asked.toList) → g'.heard = g.heard →
        Async.wp (holdProtocol cfg dryRun) (f res) Q g' l) :
    Async.wp (holdProtocol cfg dryRun) (traderSellAll cfg dryRun p >>= f) Q g l := by
  rw [traderSellAll]
  refine Async.wp_bind.mpr (Async.wp_step trivial ?_ ?_)
  · exact HoldNotes.permits_of_ordinary unjudged (.inr (.inr (.inr ⟨p, rfl⟩)))
  intro w answers _
  obtain ⟨holding, failed, heard⟩ := @HoldNotes.next_sellAll cfg dryRun g l p answers
  exact answered _ _ rfl holding failed heard

theorem hold_trySell {pos : Position} {pct : ℚ} {reason : SellReason}
    {Q : HoldNotes → SessionLocals → Except BoxError Unit → Prop}
    (permitted : g.Permits cfg l (.call (.trySell reason)))
    (ended : ∀ g' res, g'.judged = false → g'.holding = g.holding →
      g'.failed = g.failed ++ (if res.isOk then [] else reason.exit?.toList) →
        g'.heard = g.heard → Q g' l res) :
    Async.wp (holdProtocol cfg dryRun) (trySell cfg dryRun pos pct reason) Q g l := by
  rw [trySell]
  refine Async.wp_step trivial permitted ?_
  intro w called _
  apply hold_traderSellAll
  · rfl
  intro g' res unjudged holding failed heard
  match res with
  | .error e => exact ended g' (.error e) unjudged holding failed heard
  | .ok none => exact ended g' (.ok ()) unjudged holding failed heard
  | .ok (some sig) =>
      apply hold_step unjudged rfl
      intro balance
      apply hold_step unjudged rfl
      intro noticed
      exact ended g' (.ok ()) unjudged holding failed heard

theorem hold_sellForGood {pct : Position → ℚ} {reason : SellReason}
    (final : ∀ exit, reason ≠ .exit exit) (kept : Kept cfg g l) :
    Async.wp (holdProtocol cfg dryRun) (sellForGood cfg dryRun pct reason)
      (fun g l _ => Kept cfg g l) g l := by
  rw [sellForGood, Async.wp_locals_bind]
  cases l.position with
  | none => exact kept
  | some pos =>
      rw [Async.wp_assign_bind]
      refine Async.wp_bind.mpr (hold_trySell ?_ ?_)
      · apply HoldNotes.permits_of_apart kept.unjudged
        · intro exit same
          injection same with same
          injection same with same
          exact final exit same
        · exact ⟨nofun, nofun, nofun⟩
      intro g' res unjudged _ _ _
      apply hold_step unjudged rfl
      intro left
      exact Kept.of_closed unjudged rfl

/-- After the PnL exit: no rule holds, or the position was sold or is kept after a failed sell. -/
structure Checked (cfg : Market.Config) (g : HoldNotes) (l : SessionLocals) : Prop where
  quiet : g.judged = true → g.holding.Gives cfg none
  heeded : g.heard = none
  follows : ∀ pos, l.position = some pos → Follows cfg g pos

theorem Kept.checked (kept : Kept cfg g l) (heeded : g.heard = none) : Checked cfg g l :=
  ⟨fun judged => absurd (kept.unjudged.symm.trans judged) Bool.false_ne_true, heeded,
    kept.follows⟩

theorem HoldNotes.Survived.seen {g' : HoldNotes} {priceSol : ℚ} {t : Instant}
    (survived : g.Survived cfg g.holding.ticks)
    (holding : g'.holding = g.holding.seen priceSol t) (failed : g'.failed = g.failed) :
    g'.Survived cfg g'.holding.ticks.dropLast := by
  rw [holding, Holding.seen, List.dropLast_concat]
  intro before x among reason gives
  rw [holding] at gives
  rw [failed]
  exact survived before x among reason gives

theorem HoldNotes.Survived.last {g' : HoldNotes}
    (survived : g.Survived cfg g.holding.ticks.dropLast) (holding : g'.holding = g.holding)
    (earlier : ∀ reason ∈ g.failed, reason ∈ g'.failed)
    (last : ∀ reason, g.holding.Gives cfg (some reason) → reason ∈ g'.failed) :
    g'.Survived cfg g'.holding.ticks := by
  intro before x among reason gives
  rw [holding] at among gives
  rcases List.eq_nil_or_concat g.holding.ticks with none_seen | ⟨ticks, y, concat⟩
  · rw [none_seen] at among
    exact absurd (List.prefix_nil.mp among) (List.append_ne_nil_of_right_ne_nil before nofun)
  rw [concat, List.concat_eq_append] at among survived
  rw [List.dropLast_concat] at survived
  rcases List.prefix_concat_iff.mp among with all | among
  · rw [all, ← List.concat_eq_append, ← concat] at gives
    exact last reason gives
  · exact earlier reason (survived before x among reason gives)

theorem HoldNotes.permits_exit {pos : Position} {reason : ExitReason}
    (tracks : g.holding.Tracks pos) (judged : g.judged = true)
    (survived : g.Survived cfg g.holding.ticks.dropLast) (selling : l.selling = some pos)
    (gives : g.holding.Gives cfg (some reason)) :
    g.Permits cfg l (.call (.trySell (.exit reason))) := by
  have some_rule : ¬ g.holding.Gives cfg none := by
    intro quiet
    cases quiet.unique gives
  have this_one (other : ExitReason) : g.holding.Gives cfg (some other) ↔
      Op.call (.trySell (.exit reason)) = .call (.trySell (.exit other)) := by
    constructor
    · intro again
      cases again.unique gives
      rfl
    · intro same
      cases same
      exact gives
  refine ⟨?_, ?_, ?_, ?_, ?_, nofun⟩
  · exact fun _ => ⟨this_one, iff_of_false some_rule nofun⟩
  · rintro (same | same)
    · cases same
    · cases same
  · exact fun _ _ => ⟨judged, survived⟩
  · exact fun _ _ => ⟨pos, selling, tracks⟩
  · rintro (same | same)
    · cases same
    · cases same

theorem hold_exitSale {pos : Position} {pct : ℚ} {reason : ExitReason}
    (tracks : g.holding.Tracks pos) (priced : 0 ≤ g.holding.entryPriceSol)
    (judged : g.judged = true) (survived : g.Survived cfg g.holding.ticks.dropLast)
    (heeded : g.heard = none) (opened : l.position = some pos)
    (given : g.holding.Gives cfg (some reason)) :
    Async.wp (holdProtocol cfg dryRun) (do
      Async.assign SessionLocals.take
      let res ← trySell cfg dryRun pos pct (.exit reason)
      match res with
      | .ok () => do
          let _ ← fetchSub
          Async.assign SessionLocals.settle
          let soldAt ← instantNow .soldAt
          Async.assign fun l => { l with lastSellAt := some soldAt }
      | .error _ => Async.assign fun l => l.restore pos)
      (fun g' l' _ => Checked cfg g' l') g l := by
  rw [Async.wp_assign_bind]
  refine Async.wp_bind.mpr (hold_trySell ?_ ?_)
  · exact HoldNotes.permits_exit tracks judged survived opened given
  intro g' res unjudged holding failed heard
  match res with
  | .ok () =>
      apply hold_step unjudged rfl
      intro left
      rw [Async.wp_assign_bind]
      apply hold_step unjudged rfl
      intro soldAt
      exact (Kept.of_closed unjudged rfl).checked (heard.trans heeded)
  | .error e =>
      refine Kept.checked ⟨unjudged, ?_⟩ (heard.trans heeded)
      intro pos' here
      cases here
      have failed : g'.failed = g.failed ++ [reason] := failed
      refine ⟨holding ▸ tracks, holding ▸ priced, survived.last holding ?_ ?_⟩
      · intro old mem
        rw [failed]
        exact List.mem_append_left _ mem
      · intro again gives
        cases gives.unique given
        rw [failed]
        exact List.mem_append_right _ (List.mem_singleton.mpr rfl)

theorem hold_pnlExit {price : ℚ} (kept : Kept cfg g l)
    (heard : g.heard = l.position.map fun _ => price) :
    Async.wp (holdProtocol cfg dryRun) (pnlExit cfg dryRun price)
      (fun g' l' _ => Checked cfg g' l') g l := by
  rw [pnlExit, Async.wp_locals_bind]
  cases opened : l.position with
  | none =>
      rw [opened] at heard
      exact kept.checked heard
  | some pos =>
      rw [opened] at heard
      have priceSol : g.heard.getD 0 = price := by
        rw [heard]
        rfl
      obtain ⟨tracks, priced, survived⟩ := kept.follows pos opened
      rw [Async.wp_assign_bind]
      refine Async.wp_step trivial ?_ ?_
      · apply HoldNotes.permits_of_unjudged kept.unjudged
        · exact nofun
        · rintro (same | same)
          · cases same
          · cases same
        · rintro (same | same)
          · cases same
          · cases same
        · refine fun _ => ⟨?_, rfl, survived⟩
          rw [heard]
          rfl
      intro w now _
      -- the notes after the age is read
      generalize seen : (holdProtocol cfg dryRun).next g w _ (.now .exitAge) now = g'
      have holding : g'.holding = g.holding.seen price now := by
        rw [← seen, ← priceSol]
        rfl
      have before_last : g'.Survived cfg g'.holding.ticks.dropLast :=
        survived.seen holding (by rw [← seen]; rfl)
      have updated : g'.holding.Tracks (pos.updatePeak (pos.pnlPct price)) :=
        holding ▸ tracks.seen priced
      have still_priced : 0 ≤ g'.holding.entryPriceSol := holding ▸ priced
      have gives := @Holding.Tracks.gives g.holding pos price now cfg tracks priced
      rw [← holding] at gives
      cases decided : decideExit (pos.updatePeak (pos.pnlPct price)) (pos.pnlPct price)
        (asSecs (durationSince now pos.boughtAt)) cfg.trading cfg.dipBuyExit
        (parseTiers cfg.trading.dynamicTrailingStopThresholds)
        (parseTiers cfg.dipBuyExit.trailTiers) with
      | none =>
          have quiet := (gives none).mp decided
          dsimp only
          rw [Position.updatePeak_boughtAt, decided]
          refine ⟨fun _ => quiet, by rw [← seen]; rfl, ?_⟩
          intro pos' here
          cases here
          refine ⟨updated, still_priced, before_last.last rfl (fun _ old => old) ?_⟩
          exact fun reason given => nomatch given.unique quiet
      | some reason =>
          dsimp only
          rw [Position.updatePeak_boughtAt, decided]
          exact hold_exitSale updated still_priced (by rw [← seen]; rfl) before_last
            (by rw [← seen]; rfl) rfl ((gives (some reason)).mp decided)

section Entries

variable {trigger : EntryTrigger}

/-- A buy ends with a position that the notes agree with, or with none. -/
structure Brings (cfg : Market.Config) (g : HoldNotes) (opened : Option Position) : Prop where
  unjudged : g.judged = false
  heeded : g.heard = none
  follows : ∀ pos, opened = some pos → Follows cfg g pos

theorem brings_none (unjudged : g.judged = false) (heeded : g.heard = none) :
    Brings cfg g none := by
  refine ⟨unjudged, heeded, ?_⟩
  intro pos here
  cases here

theorem hold_traderBuy {p : BuyParams} {f : Except BoxError (Option Signature) → SessionM α}
    {Q : HoldNotes → SessionLocals → α → Prop} (unjudged : g.judged = false)
    (answered : ∀ res, Async.wp (holdProtocol cfg dryRun) (f res) Q g l) :
    Async.wp (holdProtocol cfg dryRun) (traderBuy cfg dryRun p >>= f) Q g l := by
  rw [traderBuy]
  refine Async.wp_bind.mpr (hold_step unjudged rfl ?_)
  intro answers
  exact answered _

theorem hold_fetchBalance {attempts : Nat} {f : Except BalanceError TokenBalance → SessionM α}
    {Q : HoldNotes → SessionLocals → α → Prop} (unjudged : g.judged = false)
    (answered : ∀ balance, Async.wp (holdProtocol cfg dryRun) (f balance) Q g l) :
    Async.wp (holdProtocol cfg dryRun) (fetchBalance attempts mint >>= f) Q g l := by
  rw [fetchBalance]
  refine Async.wp_bind.mpr (hold_step unjudged rfl ?_)
  intro answers
  exact answered _

theorem hold_recordDipBuy {f : Unit → SessionM α} {Q : HoldNotes → SessionLocals → α → Prop}
    (unjudged : g.judged = false)
    (recorded : Async.wp (holdProtocol cfg dryRun) (f ()) Q g l) :
    Async.wp (holdProtocol cfg dryRun) (recordDipBuy cfg trigger >>= f) Q g l := by
  unfold recordDipBuy
  split_ifs
  · refine Async.wp_bind.mpr (hold_step unjudged rfl ?_)
    intro r
    exact recorded
  · exact recorded

theorem hold_releaseSlot (unjudged : g.judged = false) (heeded : g.heard = none) :
    Async.wp (holdProtocol cfg dryRun) releaseSlot (fun g _ opened => Brings cfg g opened) g l := by
  rw [releaseSlot]
  apply hold_step unjudged rfl
  intro left
  exact brings_none unjudged heeded

theorem hold_trackPosition {slot : Int} {sig : Signature} (unjudged : g.judged = false)
    (heeded : g.heard = none) (buying : l.buying.map BuyFrame.trigger = some trigger) :
    Async.wp (holdProtocol cfg dryRun) (trackPosition cfg mint trigger slot sig)
      (fun g _ opened => Brings cfg g opened) g l := by
  rw [trackPosition, Async.wp_locals_bind]
  refine Async.wp_step trivial ?_ ?_
  · exact HoldNotes.permits_of_ordinary unjudged (.inr (.inl rfl))
  intro w boughtAt _
  rw [Async.wp_assign_bind]
  apply hold_fetchBalance rfl
  intro balance
  match balance with
  | .error e =>
      apply hold_step rfl rfl
      intro noticed
      exact hold_releaseSlot rfl heeded
  | .ok b =>
      dsimp only
      split_ifs with received
      · exact hold_releaseSlot rfl heeded
      refine Async.wp_step trivial ?_ ?_
      · exact HoldNotes.permits_of_ordinary rfl (.inr (.inr (.inl ⟨_, rfl⟩)))
      intro w' noticed _
      refine ⟨rfl, heeded, ?_⟩
      intro pos here
      cases here
      refine ⟨⟨rfl, rfl, ?_, rfl⟩, ?_, ?_⟩
      · change trigger = (l.buying.map BuyFrame.trigger).getD .macd
        rw [buying]
        rfl
      · change 0 ≤ cfg.amountSol / b.uiAmount
        have amount : 0 ≤ cfg.amountSol := div_nonneg (Nat.cast_nonneg _) (by norm_num)
        exact div_nonneg amount (le_of_not_ge received)
      · intro before x among
        exact absurd (List.prefix_nil.mp among) (List.append_ne_nil_of_right_ne_nil before nofun)

theorem hold_buyInSlot (unjudged : g.judged = false) (heeded : g.heard = none) :
    Async.wp (holdProtocol cfg dryRun) (buyInSlot cfg dryRun mint trigger)
      (fun g _ opened => Brings cfg g opened) g l := by
  rw [buyInSlot, Async.wp_locals_bind]
  apply hold_step unjudged rfl
  intro slot
  rw [Async.wp_assign_bind]
  split_ifs
  · exact hold_releaseSlot unjudged heeded
  apply hold_traderBuy unjudged
  intro res
  match res with
  | .ok (some sig) =>
      apply hold_recordDipBuy unjudged
      exact hold_trackPosition unjudged heeded rfl
  | .ok none =>
      apply hold_recordDipBuy unjudged
      exact hold_releaseSlot unjudged heeded
  | .error e => exact hold_releaseSlot unjudged heeded

theorem hold_tryBuy (unjudged : g.judged = false) (heeded : g.heard = none) :
    Async.wp (holdProtocol cfg dryRun) (tryBuy cfg dryRun mint trigger)
      (fun g _ opened => Brings cfg g opened) g l := by
  rw [tryBuy]
  apply hold_step unjudged rfl
  intro called
  rw [Async.wp_assign_bind]
  split_ifs
  · apply hold_step unjudged rfl
    intro now
    apply hold_step unjudged rfl
    intro allowed
    match allowed with
    | .error spent => exact brings_none unjudged heeded
    | .ok () => exact hold_buyInSlot unjudged heeded
  · exact hold_buyInSlot unjudged heeded

theorem holdsOn_enterPosition : HoldsOn cfg dryRun (enterPosition cfg dryRun mint trigger) := by
  intro g l rested
  rw [enterPosition]
  refine Async.wp_bind.mpr (Async.wp_mono _ (hold_tryBuy rested.kept.unjudged rested.heeded) ?_)
  intro g' l' opened brings
  exact ⟨⟨brings.unjudged, brings.follows⟩, brings.heeded⟩

end Entries

theorem holdsOn_entries : HoldsOn cfg dryRun (do
    dipBuyEntry cfg dryRun mint now u
    capitulationEntry cfg dryRun mint now u
    macdEntry cfg dryRun mint now u
    pure (none : Option Unit)) :=
  entries_keep (fun _ _ _ same => Rested.aside same.1) fun _ _ =>
    gatedEntry_keeps holdsOn_enterPosition

theorem Checked.permits_tick (checked : Checked cfg g l) : g.Permits cfg l (.now .tick) := by
  refine ⟨?_, fun _ => checked.heeded, nofun, nofun, ?_, nofun⟩
  · intro judged
    have quiet := checked.quiet judged
    have no_reason (reason : ExitReason) : ¬ g.holding.Gives cfg (some reason) := by
      intro given
      cases given.unique quiet
    constructor
    · exact fun reason => iff_of_false (no_reason reason) nofun
    · exact iff_of_true quiet rfl
  · exact fun _ pos opened => (checked.follows pos opened).tracks

theorem Rested.permits_select (rested : Rested cfg g l) : g.Permits cfg l .select :=
  HoldNotes.permits_of_unjudged rested.kept.unjudged nofun (fun _ => rested.heeded)
    (fun _ pos opened => (rested.kept.follows pos opened).tracks) nofun

/-- After an event: the loop goes on once the tick was heeded. -/
structure Rounded (cfg : Market.Config) (g : HoldNotes) (l : SessionLocals) (x : Option Unit) :
    Prop where
  kept : Kept cfg g l
  heeded : x = none → g.heard = none

theorem hold_onTick (kept : Kept cfg g l) (heard : g.heard = l.position.map fun _ => u.priceSol) :
    Async.wp (holdProtocol cfg dryRun) (onTick cfg dryRun mint u) (Rounded cfg) g l := by
  rw [onTick, Async.wp_assign_bind, Async.wp_locals_bind]
  have fed (rugGuard : RugGuard) :
      Kept cfg g { l with lastPrice := some u.priceSol, rugGuard := rugGuard } := by
    apply kept.aside
    rfl
  split
  · refine Async.wp_bind.mpr (Async.wp_mono _ (hold_sellForGood nofun (fed _)) ?_)
    intro g' l' _ kept'
    exact ⟨kept', nofun⟩
  · refine Async.wp_bind.mpr (Async.wp_mono _ (hold_pnlExit (fed _) heard) ?_)
    intro g' l' _ checked
    refine Async.wp_step trivial checked.permits_tick ?_
    intro w now _
    refine Async.wp_mono _ (holdsOn_entries _ _ ⟨⟨rfl, ?_⟩, checked.heeded⟩) ?_
    · intro pos opened
      obtain ⟨tracks, priced, survived⟩ := checked.follows pos opened
      exact ⟨tracks, priced, survived⟩
    · exact fun _ _ _ rested => ⟨rested.kept, fun _ => rested.heeded⟩

theorem hold_sessionRound (rested : Rested cfg g l) :
    Async.wp (holdProtocol cfg dryRun) (sessionRound cfg dryRun mint) (Rounded cfg) g l := by
  rw [sessionRound]
  refine Async.wp_step trivial rested.permits_select ?_
  intro w event _
  match event with
  | .deadline => exact ⟨rested.kept.heard g.heard, nofun⟩
  | .tick none => exact ⟨rested.kept.heard g.heard, nofun⟩
  | .tick (some sample) => exact hold_onTick (rested.kept.heard _) rfl

theorem hold_runSession (rested : Rested cfg g l) :
    Async.wp (holdProtocol cfg dryRun) (runSession cfg dryRun mint)
      (fun g l _ => Kept cfg g l) g l := by
  have unjudged := rested.kept.unjudged
  rw [runSession]
  apply hold_step unjudged rfl
  intro sessionStart
  rw [Async.wp_locals_bind]
  apply hold_step unjudged rfl
  intro polled
  rw [Async.wp_assign_bind]
  apply hold_step unjudged rfl
  intro armed
  have started : Rested cfg g (.start cfg l.event sessionStart) :=
    ⟨Kept.of_closed unjudged rfl, rested.heeded⟩
  refine Async.wp_bind.mpr (Async.wp_loop (Rested cfg) started (fun _ _ _ => trivial) ?_)
  intro g l rested
  refine Async.wp_mono _ (hold_sessionRound rested) ?_
  intro g' l' x ends
  cases x with
  | none => exact ⟨ends.kept, ends.heeded rfl⟩
  | some left =>
      rw [Async.wp_locals_bind]
      exact hold_sellForGood nofun ends.kept

theorem rested_keeps {o : Op} (ordinary : o.isOrdinary = true) :
    HoldsOn cfg dryRun (Async.perform o) :=
  fun _ _ rested => hold_step rested.kept.unjudged ordinary fun _ => rested

theorem hold_sessionTask (rested : Rested cfg g l) :
    Async.wp (holdProtocol cfg dryRun) (sessionTask cfg dryRun)
      (fun g l _ => Kept cfg g l) g l := by
  refine sessionTask_wp (fun _ => rested_keeps rfl) (fun _ _ rested => rested.kept)
    (fun _ _ _ _ rested => hold_runSession rested) (fun _ => rested_keeps rfl) ?_ rested
  intro g l name symbol rested
  apply rested.aside
  rfl

end Walk

section Runs

variable {cfg : Market.Config} {dryRun : Bool} {start : Instant} {admits : GradAdmit}
  {tr : GradTrace} {c : GradConfig}

def holdNotes (cfg : Market.Config) (dryRun : Bool) (i : Nat) (tr : GradTrace) : HoldNotes :=
  ghost (holdProtocol cfg dryRun) {} i tr

theorem session_holds (run : GradRun cfg dryRun start admits tr c) :
    ∀ i t, c.tasks[i]? = some t →
      Proc.wp (holdProtocol cfg dryRun) t (fun g l _ => Kept cfg g l)
        (holdNotes cfg dryRun i tr) := by
  refine graduation_protocol (holdProtocol cfg dryRun) (fun g l _ => Kept cfg g l) {} ?_ ?_ run
  · exact fun ev now => hold_sessionTask ⟨Kept.of_closed rfl rfl, rfl⟩
  · intros
    trivial

/-- The exits of the sessions follow the rules over every holding period. -/
structure FollowsExitRules (cfg : Market.Config) (dryRun : Bool) (tr : GradTrace) : Prop where
  decides : ∀ pos currentPct elapsedSecs given,
    decideExit pos currentPct elapsedSecs cfg.trading cfg.dipBuyExit
        (parseTiers cfg.trading.dynamicTrailingStopThresholds)
        (parseTiers cfg.dipBuyExit.trailTiers) = given ↔
      ExitGiven cfg pos.entryTrigger ⟨pos.peakPct, currentPct, elapsedSecs⟩ given
  permits : ∀ pre w i l o r post, tr = pre ++ (w, .perform i l o r) :: post →
    (holdNotes cfg dryRun i pre).Permits cfg l o

theorem hold_permits (run : GradRun cfg dryRun start admits tr c) (pre : GradTrace) (w : World)
    (i : Nat) (l : SessionLocals) (o : Op) (r : Reply o) (post : GradTrace)
    (split : tr = pre ++ (w, .perform i l o r) :: post) :
    (holdNotes cfg dryRun i pre).Permits cfg l o := by
  obtain ⟨c₁, c₂, before, _, _, moved⟩ := run.upto pre w _ post split
  cases moved with
  | perform pending granted => exact (session_holds before i _ pending).2.1

theorem exits_follow_rules (cfg : Market.Config) (dryRun : Bool) (start : Instant)
    (tr : GradTrace) (c : GradConfig) (run : GradRun cfg dryRun start always tr c) :
    FollowsExitRules cfg dryRun tr :=
  ⟨decideExit_iff cfg, hold_permits run⟩

end Runs

theorem exits_follow_rules_failed_sell : ∃ tr,
    (holdNotes eager false 0 tr).failed = [.maxHoldTime 60 0] ∧
    (holdNotes eager false 0 tr).holding.ticks.map Prod.fst = [1, 2] ∧
    FollowsExitRules eager false tr := by
  obtain ⟨tr, c, run, reached⟩ := System.script_reaches (graduation eager false)
    (graduationStart eager 0)
    (warmUp 0 ++ buyTick readyNet 0 9 ++ [.env (.advance (fromSecs 60))] ++ price 0 1 10 ++
      go deafNet 0 7 ++ price 0 2 10 ++ go readyNet 0 4)
    (fun tr _ => (holdNotes eager false 0 tr).failed = [.maxHoldTime 60 0] ∧
      (holdNotes eager false 0 tr).holding.ticks.map Prod.fst = [1, 2]) (by decide +kernel)
  obtain ⟨failed, seen⟩ := of_decide_eq_true reached
  exact ⟨tr, failed, seen, exits_follow_rules eager false 0 tr c run⟩

end HadesPsTrader.Tasks
