/- Module: HadesPsTrader/Runs/CopyDiscipline
   source: src/copy_session.rs
   digest: What is written down about one copy session in a run, and the discipline it keeps. -/

import HadesPsTrader.Runs.SessionDiary

set_option autoImplicit false
set_option relaxedAutoImplicit false

namespace HadesPsTrader.Tasks

open HadesPsTrader.Market HadesPsTrader.Chain HadesPsTrader.Interaction

/-- The history of one copy session, read off its operations and their answers. -/
structure CopyDiary where
  /-- The clock at the last operation. -/
  seen : Instant := 0
  /-- The `bought_at` of the position, and when its slot was released. -/
  entered : Option Instant := none
  left : Option Instant := none
  /-- The monitor loop was entered. -/
  monitored : Bool := false
  /-- The reason of the last `do_sell`. -/
  reason : Option SellReason := none
  /-- A `do_sell` of the monitor loop returned `Ok`. -/
  sold : Bool := false
  /-- A `do_sell` failed whose exit leaves the loop all the same. -/
  lost : Bool := false
  /-- The exit behind the loop was tried. -/
  forced : Bool := false

/-- The sell reasons of the exits that leave the monitor loop whatever the sell returns. -/
def SellReason.leaves : SellReason → Bool
  | .rugDetected _ => true
  | .copyMaxHold => true
  | .shutdown => true
  | .mirrorAlphaClosed => true
  | .exit _ => false
  | .forcedExit => false
  | .copyForcedExit => false

namespace CopyDiary

variable (cfg : Market.Config) (dryRun : Bool)

def sale (g : CopyDiary) (ok : Bool) : CopyDiary :=
  { g with
    sold := g.sold || (ok && g.reason ≠ some .copyForcedExit)
    lost := g.lost || (!ok && g.reason.any SellReason.leaves) }

def entry (g : CopyDiary) (w : World) : (o : Op) → Reply o → CopyDiary
  | .call (.doSell reason), _ =>
      { g with reason := some reason, forced := g.forced || reason = .copyForcedExit }
  | .now .boughtAt, t => { g with entered := some t }
  | .fetchSub, _ => { g with left := g.entered.map fun _ => w.clock }
  | .sleepUntil _, _ => { g with monitored := true }
  | .sellAll p, answers => g.sale (soldOk cfg dryRun p answers)
  | _, _ => g

def stamp (g : CopyDiary) (w : World) : CopyDiary := { g with seen := w.clock }

def next (g : CopyDiary) (w : World) (o : Op) (r : Reply o) : CopyDiary :=
  (g.entry cfg dryRun w o r).stamp w

section Lemmas

variable {cfg dryRun} {g : CopyDiary} {w : World}

@[simp] theorem stamp_seen : (g.stamp w).seen = w.clock := rfl
@[simp] theorem stamp_entered : (g.stamp w).entered = g.entered := rfl
@[simp] theorem stamp_left : (g.stamp w).left = g.left := rfl
@[simp] theorem stamp_monitored : (g.stamp w).monitored = g.monitored := rfl
@[simp] theorem stamp_reason : (g.stamp w).reason = g.reason := rfl
@[simp] theorem stamp_sold : (g.stamp w).sold = g.sold := rfl
@[simp] theorem stamp_lost : (g.stamp w).lost = g.lost := rfl
@[simp] theorem stamp_forced : (g.stamp w).forced = g.forced := rfl

@[simp] theorem next_eq (o : Op) (r : Reply o) :
    g.next cfg dryRun w o r = (g.entry cfg dryRun w o r).stamp w := rfl

end Lemmas

end CopyDiary

/-- What the `sold` flag of the locals rests on. -/
structure Flagged (g : CopyDiary) (l : CopyLocals) : Prop where
  sold : l.sold = true → g.sold = true ∨ g.lost = true
  lost : g.lost = true → l.sold = true ∧ g.sold = false

structure CopyCoherent (g : CopyDiary) (l : CopyLocals) : Prop where
  flagged : Flagged g l
  entered : g.entered = l.boughtAt
  left : g.left = none
  past : ∀ t, g.entered = some t → t ≤ g.seen

/-- How a copy session returns: its last step released the slot, if it ever held a position. -/
structure CopyEnded (g : CopyDiary) (l : CopyLocals) : Prop where
  flagged : Flagged g l
  closed : l.boughtAt = none
  left : g.left = g.entered.map fun _ => g.seen
  past : ∀ t, g.entered = some t → t ≤ g.seen

def CopyPermits (cfg : Market.Config) (g : CopyDiary) (l : CopyLocals) : Op → Prop
  | .call (.tryBuy _) => False
  | .call (.trySell _) => False
  | .call (.doSell _) => l.boughtAt.isSome ∧ l.sold = false
  | .fetchSub => l.slot.isSome ∧
      (g.monitored = true → g.sold = true ∨ g.lost = true ∨ g.forced = true)
  | .spendCheck now amountSol => amountSol = cfg.copyTrade.tradeAmountSol ∧ now ≤ g.seen
  | .spendRecord amountSol => amountSol = cfg.copyTrade.tradeAmountSol
  | .sellAll _ => l.boughtAt.isSome ∧ l.sold = false
  | .select => False
  | _ => True

/-- The clock a copy session sees never runs back, and `Instant::now` reads it. -/
def CopyTimely (g : CopyDiary) (w : World) : (o : Op) → Reply o → Prop
  | .now _, t => g.seen ≤ w.clock ∧ t = w.clock
  | _, _ => g.seen ≤ w.clock

def copyProtocol (cfg : Market.Config) (dryRun : Bool) :
    Protocol CopyDiary World CopyLocals Op Reply where
  coherent g l := CopyCoherent g l
  guard g l o := CopyPermits cfg g l o
  valid g w _ o r := CopyTimely g w o r
  next g w _ o r := g.next cfg dryRun w o r

section Discipline

variable (cfg : Market.Config) (dryRun : Bool)

abbrev CopyKeeps {α : Type} (m : CopyM α) (Q : CopyDiary → CopyLocals → α → Prop)
    (g : CopyDiary) (l : CopyLocals) : Prop :=
  Async.wp (copyProtocol cfg dryRun) m Q g l

variable {cfg dryRun} {α : Type} {Q : CopyDiary → CopyLocals → α → Prop} {g : CopyDiary}
  {l : CopyLocals}

theorem copyKeeps_step {o : Op} {f : Reply o → CopyM α} (coherent : CopyCoherent g l)
    (permitted : CopyPermits cfg g l o)
    (answered : ∀ w r, CopyTimely g w o r →
      CopyKeeps cfg dryRun (f r) Q (g.next cfg dryRun w o r) l) :
    CopyKeeps cfg dryRun (Async.perform o >>= f) Q g l :=
  Async.wp_step coherent permitted answered

/-- A copy session before it has sold anything: `b` is its entry, `m` says whether it monitors. -/
structure CopyHolding (b : Option Instant) (m : Bool) (g : CopyDiary) (l : CopyLocals) :
    Prop where
  boughtAt : l.boughtAt = b
  entered : g.entered = b
  left : g.left = none
  past : ∀ t, g.entered = some t → t ≤ g.seen
  monitored : g.monitored = m
  unsold : g.sold = false
  unlost : g.lost = false
  flag : l.sold = false

namespace CopyHolding

variable {b : Option Instant} {m : Bool}

theorem coherent (h : CopyHolding b m g l) : CopyCoherent g l :=
  ⟨⟨by simp [h.flag], by simp [h.unlost]⟩, h.entered.trans h.boughtAt.symm, h.left, h.past⟩

theorem stamp (h : CopyHolding b m g l) {w : World} (later : g.seen ≤ w.clock) :
    CopyHolding b m (g.stamp w) l :=
  ⟨h.boughtAt, h.entered, h.left, fun t ht => (h.past t ht).trans later, h.monitored, h.unsold,
    h.unlost, h.flag⟩

theorem assign (h : CopyHolding b m g l) (l' : CopyLocals) (boughtAt : l'.boughtAt = l.boughtAt)
    (sold : l'.sold = l.sold) : CopyHolding b m g l' :=
  ⟨boughtAt.trans h.boughtAt, h.entered, h.left, h.past, h.monitored, h.unsold, h.unlost,
    sold.trans h.flag⟩

end CopyHolding

/-- Where the monitor loop stops: the flag is set, or nothing was sold. -/
structure CopyLeft (b : Instant) (g : CopyDiary) (l : CopyLocals) : Prop where
  coherent : CopyCoherent g l
  boughtAt : l.boughtAt = some b
  slot : l.slot.isSome
  settled : l.sold = true ∨ CopyHolding (some b) true g l

theorem copyKeeps_traderSellAll {p : SellAllParams}
    {f : Except BoxError (Option Signature) → CopyM α} (coherent : CopyCoherent g l)
    (permitted : CopyPermits cfg g l (.sellAll p))
    (answered : ∀ w res, g.seen ≤ w.clock →
      CopyKeeps cfg dryRun (f res) Q ((g.sale res.isOk).stamp w) l) :
    CopyKeeps cfg dryRun (traderSellAll cfg dryRun p >>= f) Q g l := by
  rw [traderSellAll]
  refine Async.wp_bind.mpr (Async.wp_step coherent permitted ?_)
  intro w answers timely
  exact answered w _ timely

theorem copyKeeps_traderBuy {p : BuyParams} {f : Except BoxError (Option Signature) → CopyM α}
    (coherent : CopyCoherent g l)
    (answered : ∀ w res, g.seen ≤ w.clock → CopyKeeps cfg dryRun (f res) Q (g.stamp w) l) :
    CopyKeeps cfg dryRun (traderBuy cfg dryRun p >>= f) Q g l := by
  rw [traderBuy]
  refine Async.wp_bind.mpr (Async.wp_step coherent trivial ?_)
  intro w answers timely
  exact answered w _ timely

theorem copyKeeps_fetchBalance {attempts : Nat} {mint : Pubkey}
    {f : Except BalanceError TokenBalance → CopyM α} (coherent : CopyCoherent g l)
    (answered : ∀ w res, g.seen ≤ w.clock → CopyKeeps cfg dryRun (f res) Q (g.stamp w) l) :
    CopyKeeps cfg dryRun (fetchBalance attempts mint >>= f) Q g l := by
  rw [fetchBalance]
  refine Async.wp_bind.mpr (Async.wp_step coherent trivial ?_)
  intro w answers timely
  exact answered w _ timely

/-- How `do_sell` leaves the diary when it returns `res`. -/
structure CopySaleEnded (b : Instant) (g : CopyDiary) (l : CopyLocals) (reason : SellReason)
    (res : Except BoxError Unit) : Prop where
  boughtAt : l.boughtAt = some b
  entered : g.entered = some b
  left : g.left = none
  past : b ≤ g.seen
  monitored : g.monitored = true
  sold : g.sold = (res.isOk && reason ≠ .copyForcedExit)
  lost : g.lost = (!res.isOk && reason.leaves)
  forced : reason = .copyForcedExit → g.forced = true
  flag : l.sold = false

namespace CopySaleEnded

variable {b : Instant} {reason : SellReason} {res : Except BoxError Unit}

theorem coherent (ended : CopySaleEnded b g l reason res) {l' : CopyLocals}
    (boughtAt : l'.boughtAt = l.boughtAt) (flagged : Flagged g l') : CopyCoherent g l' where
  flagged := flagged
  entered := by rw [ended.entered, boughtAt, ended.boughtAt]
  left := ended.left
  past := by
    intro t entered
    rw [ended.entered] at entered
    exact Option.some.inj entered ▸ ended.past

theorem holding (ended : CopySaleEnded b g l reason res) (failed : res.isOk = false)
    (stays : reason.leaves = false) : CopyHolding (some b) true g l where
  boughtAt := ended.boughtAt
  entered := ended.entered
  left := ended.left
  past := (ended.coherent rfl ⟨by simp [ended.flag], by simp [ended.lost, stays]⟩).past
  monitored := ended.monitored
  unsold := by rw [ended.sold, failed, Bool.false_and]
  unlost := by rw [ended.lost, stays, Bool.and_false]
  flag := ended.flag

end CopySaleEnded

theorem copyKeeps_doSell {b : Instant} {pct : ℚ} {reason : SellReason}
    {Q : CopyDiary → CopyLocals → Except BoxError Unit → Prop}
    (holding : CopyHolding (some b) true g l)
    (ended : ∀ g' res, CopySaleEnded b g' l reason res → Q g' l res) :
    CopyKeeps cfg dryRun (doSell cfg dryRun pct reason) Q g l := by
  refine copyKeeps_step holding.coherent ⟨by simp [holding.boughtAt], holding.flag⟩
    fun w₁ r t₁ => Async.wp_locals_bind.mpr ?_
  have called : CopyHolding (some b) true
      (g.next cfg dryRun w₁ (.call (.doSell reason)) r) l :=
    ⟨holding.boughtAt, holding.entered, holding.left, fun t ht => (holding.past t ht).trans t₁,
      holding.monitored, holding.unsold, holding.unlost, holding.flag⟩
  refine copyKeeps_traderSellAll called.coherent ⟨by simp [holding.boughtAt], holding.flag⟩
    fun w₂ res t₂ => ?_
  have past : b ≤ w₂.clock := (called.past b called.entered).trans t₂
  -- what the sell leaves, at this or at a later clock
  have sold {ok : Bool} (res' : Except BoxError Unit) (outcome : res'.isOk = ok)
      (w : World) (later : b ≤ w.clock) : CopySaleEnded b
        ((((g.next cfg dryRun w₁ (.call (.doSell reason)) r).sale ok).stamp w₂).stamp w) l reason
          res' := by
    subst outcome
    refine ⟨holding.boughtAt, holding.entered, holding.left, later, holding.monitored, ?_, ?_, ?_,
      holding.flag⟩
    · simp [CopyDiary.sale, CopyDiary.entry, holding.unsold]
    · simp [CopyDiary.sale, CopyDiary.entry, holding.unlost]
    · rintro rfl
      simp [CopyDiary.sale, CopyDiary.entry]
  match res with
  | .error e => exact ended _ (.error e) (sold (.error e) (by rfl) w₂ past)
  | .ok none => exact ended _ (.ok ()) (sold (.ok ()) (by rfl) w₂ past)
  | .ok (some sig) =>
      have coherent (w : World) (later : b ≤ w.clock) : CopyCoherent
          ((((g.next cfg dryRun w₁ (.call (.doSell reason)) r).sale true).stamp w₂).stamp w)
            l := by
        have done := sold (.ok ()) (by rfl) w later
        refine done.coherent rfl ⟨by simp [holding.flag], fun lost => ?_⟩
        rw [done.lost] at lost
        cases lost
      -- the balance read and the message are not recorded
      refine copyKeeps_step (coherent w₂ past) trivial ?_
      intro w₃ _ t₃
      refine copyKeeps_step (coherent w₃ (past.trans t₃)) trivial ?_
      intro w₄ _ t₄
      exact ended _ _ (sold (.ok ()) (by rfl) w₄ (past.trans (t₃.trans t₄)))

theorem copyKeeps_sellAndLeave {b : Instant} {pct : ℚ} {reason : SellReason}
    {Q : CopyDiary → CopyLocals → Option Unit → Prop} (holding : CopyHolding (some b) true g l)
    (slot : l.slot.isSome) (leaves : reason.leaves = true)
    (left : ∀ g' l', CopyLeft b g' l' → Q g' l' (some ())) :
    CopyKeeps cfg dryRun (sellAndLeave cfg dryRun pct reason) Q g l := by
  refine Async.wp_bind.mpr (copyKeeps_doSell holding ?_)
  intro g' res ended
  have loop : reason ≠ .copyForcedExit := by
    rintro rfl
    cases leaves
  refine left _ _ ⟨ended.coherent rfl ⟨fun _ => ?_, fun lost => ⟨rfl, ?_⟩⟩, ended.boughtAt, slot,
    .inl rfl⟩
  · rw [ended.sold, ended.lost, leaves]
    cases res.isOk <;> simp [loop]
  · rw [ended.lost] at lost
    rw [ended.sold]
    cases ok : res.isOk <;> simp_all

section Rounds

variable {b : Instant} {Q : CopyDiary → CopyLocals → Option Unit → Prop}

theorem copyKeeps_onMirror {r : Received AlphaTrade} (holding : CopyHolding (some b) true g l)
    (slot : l.slot.isSome)
    (again : ∀ g' l', CopyHolding (some b) true g' l' → l'.slot.isSome → Q g' l' none)
    (left : ∀ g' l', CopyLeft b g' l' → Q g' l' (some ())) :
    CopyKeeps cfg dryRun (onMirror cfg dryRun r) Q g l := by
  refine Async.wp_locals_bind.mpr ?_
  cases r with
  | got sell =>
      dsimp only
      split_ifs
      · exact copyKeeps_sellAndLeave holding slot rfl left
      · exact again g l holding slot
  | lagged n => exact again g l holding slot
  | closed => exact again _ _ (holding.assign _ rfl rfl) slot

theorem copyKeeps_onCopyTick {u : PriceUpdate} (holding : CopyHolding (some b) true g l)
    (slot : l.slot.isSome)
    (again : ∀ g' l', CopyHolding (some b) true g' l' → l'.slot.isSome → Q g' l' none)
    (left : ∀ g' l', CopyLeft b g' l' → Q g' l' (some ())) :
    CopyKeeps cfg dryRun (onCopyTick cfg dryRun u) Q g l := by
  have observed : CopyHolding (some b) true g { l with
      lastPrice := some u.priceSol
      rugGuard := l.rugGuard.observe u.priceSol u.poolSol } := holding.assign _ rfl rfl
  refine Async.wp_assign_bind.mpr (Async.wp_locals_bind.mpr ?_)
  dsimp only
  split
  · exact copyKeeps_sellAndLeave observed slot rfl left
  · generalize (if l.peakPct < Copy.pnlPct l.entryPriceSol u.priceSol then
      Copy.pnlPct l.entryPriceSol u.priceSol else l.peakPct) = peak
    refine Async.wp_assign_bind.mpr ?_
    have peaked := observed.assign { l with
      lastPrice := some u.priceSol
      rugGuard := l.rugGuard.observe u.priceSol u.poolSol
      peakPct := peak } rfl rfl
    refine copyKeeps_step peaked.coherent trivial ?_
    intro w now timely
    have aged := peaked.stamp timely.1
    dsimp only
    split
    · exact again _ _ aged slot
    · next reason _ =>
        refine Async.wp_bind.mpr (copyKeeps_doSell aged ?_)
        intro g' res ended
        match res with
        | .ok () =>
            have flagged : Flagged g' { l with
                lastPrice := some u.priceSol
                rugGuard := l.rugGuard.observe u.priceSol u.poolSol
                peakPct := peak
                sold := true } := by
              refine ⟨fun _ => .inl (ended.sold.trans (by rfl)), fun lost => ?_⟩
              rw [ended.lost] at lost
              cases lost
            exact left _ _ ⟨ended.coherent rfl flagged, ended.boughtAt, slot, .inl rfl⟩
        | .error e => exact again _ _ (ended.holding rfl rfl) slot

theorem copyKeeps_copyRound (holding : CopyHolding (some b) true g l) (slot : l.slot.isSome)
    (again : ∀ g' l', CopyHolding (some b) true g' l' → l'.slot.isSome → Q g' l' none)
    (left : ∀ g' l', CopyLeft b g' l' → Q g' l' (some ())) :
    CopyKeeps cfg dryRun (copyRound cfg dryRun) Q g l := by
  refine Async.wp_locals_bind.mpr (copyKeeps_step holding.coherent trivial ?_)
  intro w event later
  have selected := holding.stamp later
  match event with
  | .deadline => exact copyKeeps_sellAndLeave selected slot rfl left
  | .shutdown (.got ()) => exact copyKeeps_sellAndLeave selected slot rfl left
  | .shutdown .closed => exact copyKeeps_sellAndLeave selected slot rfl left
  | .shutdown (.lagged _) => exact again _ _ selected slot
  | .mirror r => exact copyKeeps_onMirror selected slot again left
  | .tick none => exact left _ _ ⟨selected.coherent, selected.boughtAt, slot, .inr selected⟩
  | .tick (some sample) => exact copyKeeps_onCopyTick selected slot again left

end Rounds

theorem copyKeeps_releaseCopySlot (coherent : CopyCoherent g l) (slot : l.slot.isSome)
    (earned : g.monitored = true → g.sold = true ∨ g.lost = true ∨ g.forced = true) :
    CopyKeeps cfg dryRun releaseCopySlot (fun g l _ => CopyEnded g l) g l :=
  copyKeeps_step coherent ⟨slot, earned⟩ fun _ _ later =>
    ⟨⟨coherent.flagged.sold, coherent.flagged.lost⟩, rfl, rfl, fun t ht =>
      (coherent.past t ht).trans later⟩

theorem copyKeeps_monitorToExit {b : Instant} {price : ℚ}
    (holding : CopyHolding (some b) false g { l with boughtAt := some b }) (slot : l.slot.isSome) :
    CopyKeeps cfg dryRun (monitorToExit cfg dryRun b price) (fun g l _ => CopyEnded g l) g l := by
  have set : CopyHolding (some b) false g { l with
      boughtAt := some b
      entryPriceSol := price
      mirrorOpen := cfg.copyTrade.mirrorExit } := holding.assign _ rfl rfl
  refine Async.wp_assign_bind.mpr (copyKeeps_step set.coherent trivial ?_)
  intro w _ later
  have armed := set.stamp later
  have watching : CopyHolding (some b) true (g.next cfg dryRun w (.sleepUntil
      (if 0 < Copy.effMaxHold cfg.copyTrade then
        some (b + fromSecs (Copy.effMaxHold cfg.copyTrade)) else none)) ()) { l with
      boughtAt := some b
      entryPriceSol := price
      mirrorOpen := cfg.copyTrade.mirrorExit } :=
    ⟨armed.boughtAt, armed.entered, armed.left, armed.past, rfl, armed.unsold, armed.unlost,
      armed.flag⟩
  refine Async.wp_bind.mpr (Async.wp_loop
    (fun g l => CopyHolding (some b) true g l ∧ l.slot.isSome) ⟨watching, slot⟩
    (fun g l h => h.1.coherent) fun g l ⟨holding, slot⟩ => ?_)
  refine copyKeeps_copyRound holding slot (fun g' l' h h' => ⟨h, h'⟩) ?_
  intro g' l' left
  refine Async.wp_locals_bind.mpr ?_
  split_ifs with sold
  · refine copyKeeps_releaseCopySlot left.coherent left.slot ?_
    intro _
    exact (left.coherent.flagged.sold sold).imp_right .inl
  · have unsold := left.settled.resolve_left sold
    refine Async.wp_bind.mpr (copyKeeps_doSell unsold ?_)
    intro g'' res ended
    have flagged : Flagged g'' l' := by
      refine ⟨fun h => absurd h sold, fun lost => ?_⟩
      rw [ended.lost] at lost
      simp [SellReason.leaves] at lost
    refine copyKeeps_releaseCopySlot (ended.coherent rfl flagged) left.slot ?_
    intro _
    exact .inr (.inr (ended.forced rfl))

theorem copyKeeps_firstPrice {Q : CopyDiary → CopyLocals → Option ℚ → Prop}
    (holding : CopyHolding none false g l) (slot : l.slot.isSome)
    (received : ∀ g' l' first, CopyHolding none false g' l' → l'.slot.isSome → Q g' l' first) :
    CopyKeeps cfg dryRun firstPrice Q g l := by
  refine Async.wp_loop (fun g l => CopyHolding none false g l ∧ l.slot.isSome) ⟨holding, slot⟩
    (fun g l h => h.1.coherent) fun g l ⟨holding, slot⟩ => ?_
  refine copyKeeps_step holding.coherent trivial ?_
  intro w sample later
  have waited := holding.stamp later
  match sample with
  | none => exact received _ _ none waited slot
  | some sample =>
      dsimp only
      split_ifs
      · exact received _ _ (some _) waited slot
      · exact ⟨waited, slot⟩

variable (cfg dryRun) in
theorem CopyHolding.enter (holding : CopyHolding none false g l) {w : World} {t : Instant}
    (timely : CopyTimely g w (.now .boughtAt) t) :
    CopyHolding (some t) false (g.next cfg dryRun w (.now .boughtAt) t)
      { l with boughtAt := some t } :=
  ⟨rfl, rfl, holding.left, fun _ ht => (Option.some.inj ht) ▸ timely.2.le, holding.monitored,
    holding.unsold, holding.unlost, holding.flag⟩

theorem copyKeeps_release {b : Option Instant} (holding : CopyHolding b false g l)
    (slot : l.slot.isSome) :
    CopyKeeps cfg dryRun releaseCopySlot (fun g l _ => CopyEnded g l) g l :=
  copyKeeps_releaseCopySlot holding.coherent slot fun monitored => by
    rw [holding.monitored] at monitored
    cases monitored

theorem copyKeeps_establish {mint : Pubkey} {buyRes : Except BoxError (Option Signature)}
    (holding : CopyHolding none false g l) (slot : l.slot.isSome) :
    CopyKeeps cfg dryRun (establish cfg dryRun mint buyRes) (fun g l _ => CopyEnded g l) g l := by
  refine Async.wp_locals_bind.mpr (copyKeeps_step holding.coherent rfl ?_)
  intro w₁ _ later₁
  have recorded := holding.stamp later₁
  match buyRes with
  | .ok (some sig) =>
      refine copyKeeps_step recorded.coherent trivial ?_
      intro w₂ boughtAt timely
      have entered := recorded.enter cfg dryRun timely
      refine Async.wp_assign_bind.mpr ?_
      refine copyKeeps_fetchBalance entered.coherent ?_
      intro w₃ balance later₃
      have fetched := entered.stamp later₃
      match balance with
      | .error e =>
          refine copyKeeps_step fetched.coherent trivial ?_
          intro w₄ _ later₄
          exact copyKeeps_release (fetched.stamp later₄) slot
      | .ok b =>
          dsimp only
          split_ifs
          · exact copyKeeps_release fetched slot
          · refine copyKeeps_step fetched.coherent trivial ?_
            intro w₄ _ later₄
            have told := fetched.stamp later₄
            refine copyKeeps_step told.coherent trivial ?_
            intro w₅ _ later₅
            exact copyKeeps_monitorToExit (told.stamp later₅) slot
  | .ok none =>
      refine copyKeeps_step recorded.coherent trivial ?_
      intro w₂ _ later₂
      have polled := recorded.stamp later₂
      refine Async.wp_bind.mpr (copyKeeps_firstPrice polled slot ?_)
      intro g' l' first waited slot
      match first with
      | none => exact copyKeeps_release waited slot
      | some price =>
          refine copyKeeps_step waited.coherent trivial ?_
          intro w₃ boughtAt timely
          exact copyKeeps_monitorToExit (waited.enter cfg dryRun timely) slot
  | .error e => exact copyKeeps_release recorded slot

theorem copyKeeps_copyHandle (alpha : AlphaTrade) :
    CopyKeeps cfg dryRun (copyHandle cfg dryRun) (fun g l _ => CopyEnded g l) {}
      { alpha := alpha } := by
  have fresh : CopyHolding none false {} { alpha := alpha } :=
    ⟨rfl, rfl, rfl, nofun, rfl, rfl, rfl, rfl⟩
  -- a session that returns before it has a slot
  have done {g : CopyDiary} (h : CopyHolding none false g { alpha := alpha }) :
      CopyEnded g { alpha := alpha } :=
    ⟨h.coherent.flagged, rfl, by rw [h.left, h.entered]; rfl, h.past⟩
  refine Async.wp_locals_bind.mpr ?_
  dsimp only
  cases Pubkey.fromStr alpha.mint with
  | none => exact done fresh
  | some mint =>
      refine copyKeeps_step fresh.coherent trivial ?_
      intro w₁ now timely
      have read := fresh.stamp timely.1
      refine copyKeeps_step read.coherent ⟨rfl, timely.2.le⟩ ?_
      intro w₂ allowed later₂
      have checked := read.stamp later₂
      match allowed with
      | .error _ => exact done checked
      | .ok () =>
          refine copyKeeps_step checked.coherent trivial fun w₃ slot later₃ =>
            Async.wp_assign_bind.mpr ?_
          have reserved := (checked.stamp later₃).assign
            { alpha := alpha, slot := some slot } rfl rfl
          split_ifs
          · exact copyKeeps_release reserved rfl
          · refine copyKeeps_traderBuy reserved.coherent ?_
            intro w₄ res later₄
            exact copyKeeps_establish (reserved.stamp later₄) rfl

end Discipline

end HadesPsTrader.Tasks
