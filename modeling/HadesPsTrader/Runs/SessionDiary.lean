/- Module: HadesPsTrader/Runs/SessionDiary
   source: src/session.rs
   digest: What is written down about one session in a run, and the discipline it keeps. -/

import HadesPsTrader.Tasks.World

set_option autoImplicit false
set_option relaxedAutoImplicit false

namespace HadesPsTrader.Tasks

open HadesPsTrader.Market HadesPsTrader.Chain HadesPsTrader.Interaction

/-- A slot as its session sees it: not reserved, reserved over the limit, or admitted. -/
inductive Slot
  | free | overshoot | admitted
  deriving DecidableEq

/-- The history of one session, read off its operations and their answers. -/
structure SessionDiary where
  /-- The mint of the session, once it has performed anything. -/
  mint : Option String := none
  /-- The clock at the last operation. -/
  seen : Instant := 0
  slot : Slot := .free
  /-- What its last reservation read on the counter. -/
  answer : Option Int := none
  /-- A spend check passed and nothing was recorded since. -/
  armed : Bool := false
  /-- The last answer of the select. -/
  event : Option SessionEvent := none
  /-- A `try_buy` was called since the last select. -/
  called : Bool := false
  /-- When the last live or dry PnL sell succeeded. -/
  pnlSoldAt : Option Instant := none
  /-- The reason of the last `try_sell` since the select, and how its sell ended if it did. -/
  reason : Option SellReason := none
  verdict : Option Bool := none
  /-- A position was announced, and neither sold nor given up by a failed last sell. -/
  holding : Bool := false
  /-- A position was given up by a failed last sell. -/
  abandoned : Bool := false
  /-- The `bought_at` of the current purchase with its trigger, until its slot is released. -/
  since : Option (Instant × EntryTrigger) := none
  /-- When `try_sell` was last called for it. -/
  attempt : Option Instant := none
  /-- The position has to be sold, or to be looked at, before the next select. -/
  pressing : Bool := false

/-- The sell reasons of the PnL exit, after whose failure the position is kept. -/
def SellReason.isExit : SellReason → Bool
  | .exit _ => true
  | .rugDetected _ => false
  | .forcedExit => false
  | .copyMaxHold => false
  | .shutdown => false
  | .mirrorAlphaClosed => false
  | .copyForcedExit => false

def overdue (cfg : Market.Config) (x : Instant × EntryTrigger) (now : Instant) : Bool :=
  0 < maxHold x.2 cfg && x.1 + fromSecs (maxHold x.2 cfg) ≤ now

def soldOk (cfg : Market.Config) (dryRun : Bool) (p : SellAllParams)
    (answers : Nat → SubmitAnswers) : Bool :=
  (Chain.sellAll (jitoSettings cfg) p dryRun answers).result.isOk

namespace SessionDiary

variable (cfg : Market.Config) (dryRun : Bool)

/-- The entry for a sell that ended; a failed PnL exit keeps the position. -/
def sale (g : SessionDiary) (w : World) (ok : Bool) : SessionDiary :=
  let exit := g.reason.any SellReason.isExit
  { g with
    verdict := some ok
    holding := g.holding && (!ok && exit)
    abandoned := g.abandoned || (!ok && !exit)
    pnlSoldAt := if ok && exit then some w.clock else g.pnlSoldAt }

def entry (g : SessionDiary) (w : World) (l : SessionLocals) : (o : Op) → Reply o → SessionDiary
  | .call (.tryBuy _), _ => { g with called := true }
  | .call (.trySell reason), _ =>
      { g with reason := some reason, verdict := none, attempt := some w.clock, pressing := false }
  | .now .boughtAt, t => { g with since := l.buying.map fun f => (t, f.trigger), attempt := none }
  | .now .exitAge, t => { g with pressing := g.since.any fun x => overdue cfg x t }
  | .fetchAdd, old =>
      { g with
        slot := if (cfg.trading.maxPositions : Int) ≤ old then .overshoot else .admitted
        answer := some old }
  | .fetchSub, _ => { g with slot := .free, since := none }
  | .spendCheck _ _, .ok () => { g with armed := true }
  | .spendRecord _, _ => { g with armed := false }
  | .sellAll p, answers => g.sale w (soldOk cfg dryRun p answers)
  | .notify (.bought ..), _ => { g with holding := true }
  | .select, event => { g with
      event := some event
      called := false
      reason := none
      verdict := none
      pressing := l.position.isSome }
  | _, _ => g

def stamp (g : SessionDiary) (w : World) (l : SessionLocals) : SessionDiary :=
  { g with mint := some l.event.mint, seen := w.clock }

def next (g : SessionDiary) (w : World) (l : SessionLocals) (o : Op) (r : Reply o) :
    SessionDiary :=
  (g.entry cfg dryRun w l o r).stamp w l

section Lemmas

variable {cfg dryRun} {g : SessionDiary} {w : World} {l : SessionLocals}

@[simp] theorem stamp_mint : (g.stamp w l).mint = some l.event.mint := rfl
@[simp] theorem stamp_seen : (g.stamp w l).seen = w.clock := rfl
@[simp] theorem stamp_slot : (g.stamp w l).slot = g.slot := rfl
@[simp] theorem stamp_answer : (g.stamp w l).answer = g.answer := rfl
@[simp] theorem stamp_armed : (g.stamp w l).armed = g.armed := rfl
@[simp] theorem stamp_event : (g.stamp w l).event = g.event := rfl
@[simp] theorem stamp_called : (g.stamp w l).called = g.called := rfl
@[simp] theorem stamp_pnlSoldAt : (g.stamp w l).pnlSoldAt = g.pnlSoldAt := rfl
@[simp] theorem stamp_reason : (g.stamp w l).reason = g.reason := rfl
@[simp] theorem stamp_verdict : (g.stamp w l).verdict = g.verdict := rfl
@[simp] theorem stamp_holding : (g.stamp w l).holding = g.holding := rfl
@[simp] theorem stamp_abandoned : (g.stamp w l).abandoned = g.abandoned := rfl
@[simp] theorem stamp_since : (g.stamp w l).since = g.since := rfl
@[simp] theorem stamp_attempt : (g.stamp w l).attempt = g.attempt := rfl
@[simp] theorem stamp_pressing : (g.stamp w l).pressing = g.pressing := rfl

@[simp] theorem next_eq (o : Op) (r : Reply o) :
    g.next cfg dryRun w l o r = (g.entry cfg dryRun w l o r).stamp w l := rfl

end Lemmas

end SessionDiary

namespace SessionLocals

variable (l : SessionLocals)

/-- The session has an open position, or sells one that it took, or has its slot in `try_buy`. -/
def reserved : Bool := l.position.isSome || l.selling.isSome || (l.buying.bind BuyFrame.slot).isSome

/-- When and why the position was bought that the session has open, or sells, or just set its
`bought_at` for. -/
def purchase : Option (Instant × EntryTrigger) :=
  match l.position, l.selling with
  | some pos, _ => some (pos.boughtAt, pos.entryTrigger)
  | none, some pos => some (pos.boughtAt, pos.entryTrigger)
  | none, none => l.buying.bind fun f => f.boughtAt.map fun t => (t, f.trigger)

end SessionLocals

/-- The entry trigger that the configuration selects. -/
def entryTrigger (cfg : Market.Config) : EntryTrigger :=
  if cfg.dipBuy.enabled then .dipBuy
  else if cfg.capitulation.enabled then .capitulation
  else .macd

/-- The states of a session, wherever it stands, with what its diary then says. -/
inductive Stance (g : SessionDiary) (l : SessionLocals) : Prop
  | idle (position : l.position = none) (selling : l.selling = none) (buying : l.buying = none)
      (slot : g.slot = .free) (holding : g.holding = false) (since : g.since = none)
  | opened (pos : Position) (position : l.position = some pos) (selling : l.selling = none)
      (buying : l.buying = none) (slot : g.slot = .admitted) (holding : g.holding = true)
      (since : g.since = some (pos.boughtAt, pos.entryTrigger)) (mint : pos.mint = l.event.mint)
  | selling (pos : Position) (position : l.position = none) (selling : l.selling = some pos)
      (buying : l.buying = none) (slot : g.slot = .admitted)
      (holding : g.holding = g.verdict.isNone)
      (since : g.since = some (pos.boughtAt, pos.entryTrigger)) (mint : pos.mint = l.event.mint)
  | buying (f : BuyFrame) (position : l.position = none) (selling : l.selling = none)
      (buying : l.buying = some f) (slot : g.slot = .free ↔ f.slot = none)
      (answer : ∀ s, f.slot = some s → g.answer = some s) (holding : g.holding = false)
      (since : g.since = f.boughtAt.map fun t => (t, f.trigger))

/-- What holds of diary and locals wherever a session stands. -/
structure Coherent (g : SessionDiary) (l : SessionLocals) : Prop where
  stance : Stance g l
  mint : ∀ m, g.mint = some m → m = l.event.mint

def Permits (cfg : Market.Config) (g : SessionDiary) (l : SessionLocals) : Op → Prop
  | .call (.tryBuy trigger) => l.position = none ∧ l.selling = none ∧ l.buying = none ∧
      g.called = false ∧ g.abandoned = false ∧ trigger = entryTrigger cfg ∧
      (∀ s, g.pnlSoldAt = some s → s + fromSecs cfg.macd.cooldownSecs ≤ g.seen) ∧
      ∃ sample : Sample, g.event = some (.tick (some sample)) ∧
        l.rugGuard.isRugged cfg.rug sample.update.priceSol sample.update.poolSol = none
  | .call (.trySell _) => l.selling.isSome
  | .call (.doSell _) => False
  | .now .boughtAt => l.buying.isSome ∧ g.slot = .admitted
  | .fetchAdd => l.buying.isSome ∧ g.slot = .free
  | .fetchSub => g.slot ≠ .free ∧ (l.selling.isSome →
      ∃ ok reason, g.verdict = some ok ∧ g.reason = some reason ∧ (ok ∨ ¬ reason.isExit))
  | .spendCheck now amountSol => amountSol = cfg.amountSol ∧ now ≤ g.seen ∧ g.slot = .free
  | .spendRecord amountSol => amountSol = cfg.amountSol ∧ g.armed ∧ g.slot = .admitted
  | .buy _ => l.buying.isSome ∧ g.slot = .admitted
  | .sellAll _ => l.selling.isSome ∧ g.verdict = none
  | .notify (.bought ..) => g.holding = false ∧ g.abandoned = false ∧ g.slot = .admitted ∧
      ∃ f t, l.buying = some f ∧ f.boughtAt = some t ∧ g.since = some (t, f.trigger)
  | .spawnPricePoll _ => l.position = none ∧ l.selling = none ∧ l.buying = none
  | .select => g.pressing = false ∧ l.selling = none ∧ l.buying = none
  | .copySelect _ => False
  | .recv => False
  | _ => g.slot ≠ .overshoot

section Lemmas

variable {cfg : Market.Config} {g : SessionDiary} {l : SessionLocals}

theorem Coherent.holding_of_sellAll (h : Coherent g l) {p : SellAllParams}
    (permitted : Permits cfg g l (.sellAll p)) : g.holding = true := by
  obtain ⟨selling, fresh⟩ := permitted
  cases h.stance with
  | selling pos _ _ _ _ holding _ _ => rw [holding, fresh]; rfl
  | opened pos _ away _ _ _ _ _ => simp [away] at selling
  | idle _ away _ _ _ _ => simp [away] at selling
  | buying f _ away _ _ _ _ _ => simp [away] at selling

theorem Coherent.carried (h : Coherent g l) (holding : g.holding = true) :
    l.position.isSome ∨ l.selling.isSome := by
  cases h.stance with
  | opened pos position _ _ _ _ _ _ => simp [position]
  | selling pos _ selling _ _ _ _ _ => simp [selling]
  | idle _ _ _ _ gone _ => simp [gone] at holding
  | buying f _ _ _ _ _ gone _ => simp [gone] at holding

theorem Coherent.since (h : Coherent g l) : g.since = l.purchase := by
  unfold SessionLocals.purchase
  cases h.stance with
  | idle position selling buying _ _ since => simp [position, selling, buying, since]
  | opened pos position _ _ _ _ since _ => simp [position, since]
  | selling pos position selling _ _ _ since _ => simp [position, selling, since]
  | buying f position selling buying _ _ _ since => simp [position, selling, buying, since]

end Lemmas

/-- The clock a session sees never runs back, and `Instant::now` reads it. -/
def Timely (g : SessionDiary) (w : World) : (o : Op) → Reply o → Prop
  | .now _, t => g.seen ≤ w.clock ∧ t = w.clock
  | _, _ => g.seen ≤ w.clock

def sessionProtocol (cfg : Market.Config) (dryRun : Bool) :
    Protocol SessionDiary World SessionLocals Op Reply where
  coherent g l := Coherent g l
  guard g l o := Permits cfg g l o
  valid g w _ o r := Timely g w o r
  next g w l o r := g.next cfg dryRun w l o r

end HadesPsTrader.Tasks
