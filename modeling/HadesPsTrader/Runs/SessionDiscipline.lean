/- Module: HadesPsTrader/Runs/SessionDiscipline
   source: src/session.rs
   digest: The session program keeps its discipline, function by function. -/

import HadesPsTrader.Runs.SessionDiary
import HadesPsTrader.Runs.SessionWalk

set_option autoImplicit false
set_option relaxedAutoImplicit false

namespace HadesPsTrader.Tasks

open HadesPsTrader.Market HadesPsTrader.Chain HadesPsTrader.Interaction

section Discipline

variable (cfg : Market.Config) (dryRun : Bool)

abbrev Keeps {α : Type} (m : SessionM α) (Q : SessionDiary → SessionLocals → α → Prop)
    (g : SessionDiary) (l : SessionLocals) : Prop :=
  Async.wp (sessionProtocol cfg dryRun) m Q g l

variable {cfg dryRun} {α : Type} {Q : SessionDiary → SessionLocals → α → Prop}
  {g : SessionDiary} {l : SessionLocals}

theorem keeps_step {o : Op} {f : Reply o → SessionM α} (coherent : Coherent g l)
    (permitted : Permits cfg g l o)
    (answered : ∀ w r, Timely g w o r → Keeps cfg dryRun (f r) Q (g.next cfg dryRun w l o r) l) :
    Keeps cfg dryRun (Async.perform o >>= f) Q g l :=
  Async.wp_step coherent permitted answered

/-- How `try_sell` leaves diary `g'` when it returns `res`; the locals are as they were. -/
structure SaleEnded (g g' : SessionDiary) (l : SessionLocals) (pos : Position)
    (reason : SellReason) (res : Except BoxError Unit) : Prop where
  mint : ∀ m, g'.mint = some m → m = l.event.mint
  slot : g'.slot = .admitted
  since : g'.since = some (pos.boughtAt, pos.entryTrigger)
  verdict : g'.verdict = some res.isOk
  why : g'.reason = some reason
  holding : g'.holding = (!res.isOk && reason.isExit)
  abandoned : g'.abandoned = (g.abandoned || (!res.isOk && !reason.isExit))
  pressing : g'.pressing = false
  event : g'.event = g.event
  called : g'.called = g.called
  seen : g.seen ≤ g'.seen
  sold : (res.isOk && reason.isExit) = true → ∃ s, g'.pnlSoldAt = some s ∧ s ≤ g'.seen
  unsold : (res.isOk && reason.isExit) = false → g'.pnlSoldAt = g.pnlSoldAt

/-- The diary and locals of a session that took its position for a sale. -/
structure Selling (g : SessionDiary) (l : SessionLocals) (pos : Position) : Prop where
  position : l.position = none
  selling : l.selling = some pos
  buying : l.buying = none
  slot : g.slot = .admitted
  since : g.since = some (pos.boughtAt, pos.entryTrigger)
  posMint : pos.mint = l.event.mint
  mint : ∀ m, g.mint = some m → m = l.event.mint

theorem Selling.coherent {pos : Position} (h : Selling g l pos)
    (holding : g.holding = g.verdict.isNone) : Coherent g l :=
  ⟨.selling pos h.position h.selling h.buying h.slot holding h.since h.posMint, h.mint⟩

theorem keeps_traderSellAll {p : SellAllParams}
    {f : Except BoxError (Option Signature) → SessionM α} (coherent : Coherent g l)
    (permitted : Permits cfg g l (.sellAll p))
    (answered : ∀ w res, g.seen ≤ w.clock →
      Keeps cfg dryRun (f res) Q ((g.sale w res.isOk).stamp w l) l) :
    Keeps cfg dryRun (traderSellAll cfg dryRun p >>= f) Q g l := by
  rw [traderSellAll]
  refine Async.wp_bind.mpr (Async.wp_step coherent permitted ?_)
  intro w answers timely
  exact answered w _ timely

theorem SaleEnded.limited {g' : SessionDiary} {pos : Position} {reason : SellReason}
    {res : Except BoxError Unit} (h : SaleEnded g g' l pos reason res) :
    g'.slot ≠ .overshoot := by
  simp [h.slot]

private theorem saleEnded_sale {pos : Position} {reason : SellReason}
    {res : Except BoxError Unit} {ok : Bool} {w₁ w₂ : World} (outcome : res.isOk = ok)
    (selling : Selling g l pos) (holding : g.holding = true) (later : g.seen ≤ w₂.clock)
    (r : Reply (.call (.trySell reason))) :
    SaleEnded g (((g.next cfg dryRun w₁ l (.call (.trySell reason)) r).sale w₂ ok).stamp w₂ l)
      l pos reason res := by
  subst outcome
  obtain ⟨_, _, _, slot, since, _, _⟩ := selling
  constructor
  case sold => intro sold; simp_all [SessionDiary.sale, SessionDiary.entry]
  case unsold => intro unsold; simp_all [SessionDiary.sale, SessionDiary.entry]
  all_goals simp [SessionDiary.sale, SessionDiary.entry, slot, since, holding, later]

private theorem SaleEnded.stamp {g' : SessionDiary} {pos : Position} {reason : SellReason}
    {res : Except BoxError Unit} (h : SaleEnded g g' l pos reason res) {w : World}
    (later : g'.seen ≤ w.clock) : SaleEnded g (g'.stamp w l) l pos reason res where
  mint := by simp
  slot := h.slot
  since := h.since
  verdict := h.verdict
  why := h.why
  holding := h.holding
  abandoned := h.abandoned
  pressing := h.pressing
  event := h.event
  called := h.called
  seen := le_trans h.seen later
  sold sold := (h.sold sold).imp fun _ hs => ⟨hs.1, le_trans hs.2 later⟩
  unsold := h.unsold

theorem SaleEnded.coherent {g' : SessionDiary} {pos : Position} {reason : SellReason}
    {res : Except BoxError Unit} (h : SaleEnded g g' l pos reason res) (selling : Selling g l pos)
    (final : (!res.isOk && reason.isExit) = false) : Coherent g' l :=
  ⟨.selling pos selling.position selling.selling selling.buying h.slot
    (by rw [h.holding, h.verdict, final]; rfl) h.since selling.posMint, h.mint⟩

theorem keeps_trySell {pos : Position} {pct : ℚ} {reason : SellReason}
    {Q : SessionDiary → SessionLocals → Except BoxError Unit → Prop}
    (selling : Selling g l pos) (holding : g.holding = true) (fresh : g.verdict = none)
    (ended : ∀ g' res, SaleEnded g g' l pos reason res → Q g' l res) :
    Keeps cfg dryRun (trySell cfg dryRun pos pct reason) Q g l := by
  have before : Coherent g l := selling.coherent (by rw [holding, fresh]; rfl)
  refine keeps_step before (by simp [Permits, selling.selling]) ?_
  intro w₁ r t₁
  refine keeps_traderSellAll ⟨.selling pos selling.position selling.selling selling.buying
    selling.slot holding selling.since selling.posMint, by simp⟩
    ⟨by simp [selling.selling], rfl⟩ fun w₂ res t₂ => ?_
  have later : g.seen ≤ w₂.clock := le_trans t₁ t₂
  match res with
  | .error e => exact ended _ (.error e) (saleEnded_sale (by rfl) selling holding later r)
  | .ok none => exact ended _ (.ok ()) (saleEnded_sale (by rfl) selling holding later r)
  | .ok (some sig) =>
      have sold : SaleEnded g (((g.next cfg dryRun w₁ l (.call (.trySell reason)) r).sale w₂
          true).stamp w₂ l) l pos reason (.ok ()) := saleEnded_sale (by rfl) selling holding later r
      -- the balance read and the message are not recorded
      refine keeps_step (sold.coherent selling rfl) sold.limited ?_
      intro w₃ _ t₃
      have read := sold.stamp t₃
      refine keeps_step (read.coherent selling rfl) read.limited ?_
      intro w₄ _ t₄
      exact ended _ _ (read.stamp t₄)

/-! ### Buying -/

theorem keeps_traderBuy {p : BuyParams} {f : Except BoxError (Option Signature) → SessionM α}
    (coherent : Coherent g l) (permitted : Permits cfg g l (.buy p))
    (answered : ∀ w res, g.seen ≤ w.clock → Keeps cfg dryRun (f res) Q (g.stamp w l) l) :
    Keeps cfg dryRun (traderBuy cfg dryRun p >>= f) Q g l := by
  rw [traderBuy]
  refine Async.wp_bind.mpr (Async.wp_step coherent permitted ?_)
  intro w answers timely
  exact answered w _ timely

theorem keeps_fetchBalance {attempts : Nat} {mint : Pubkey}
    {f : Except BalanceError TokenBalance → SessionM α} (coherent : Coherent g l)
    (limited : g.slot ≠ .overshoot)
    (answered : ∀ w res, g.seen ≤ w.clock → Keeps cfg dryRun (f res) Q (g.stamp w l) l) :
    Keeps cfg dryRun (fetchBalance attempts mint >>= f) Q g l := by
  rw [fetchBalance]
  refine Async.wp_bind.mpr (Async.wp_step coherent limited ?_)
  intro w answers timely
  exact answered w _ timely

/-- What a running `try_buy` leaves alone in the diary. -/
structure SameSales (g g' : SessionDiary) : Prop where
  event : g'.event = g.event
  pnlSoldAt : g'.pnlSoldAt = g.pnlSoldAt
  pressing : g'.pressing = g.pressing
  abandoned : g'.abandoned = g.abandoned
  seen : g.seen ≤ g'.seen

theorem SameSales.through {g₀ g' : SessionDiary} (sales : SameSales g₀ g)
    (same : g'.event = g.event ∧ g'.pnlSoldAt = g.pnlSoldAt ∧ g'.pressing = g.pressing ∧
      g'.abandoned = g.abandoned ∧ g'.seen = g.seen) : SameSales g₀ g' := by
  obtain ⟨event, pnlSoldAt, pressing, abandoned, seen⟩ := same
  constructor
  · rw [event, sales.event]
  · rw [pnlSoldAt, sales.pnlSoldAt]
  · rw [pressing, sales.pressing]
  · rw [abandoned, sales.abandoned]
  · rw [seen]
    exact sales.seen

/-- Diary and locals inside `try_buy`, which was called with diary `g₀` and locals `l₀`. -/
structure Buying (g₀ g : SessionDiary) (l₀ l : SessionLocals) (f : BuyFrame) : Prop where
  sales : SameSales g₀ g
  kept : g₀.abandoned = false
  locals : l = { l₀ with buying := some f }
  position : l₀.position = none
  selling : l₀.selling = none
  slot : g.slot = .free ↔ f.slot = none
  answer : ∀ s, f.slot = some s → g.answer = some s
  holding : g.holding = false
  since : g.since = f.boughtAt.map fun t => (t, f.trigger)
  mint : ∀ m, g.mint = some m → m = l₀.event.mint

namespace Buying

variable {g₀ : SessionDiary} {l₀ : SessionLocals} {f : BuyFrame}

theorem coherent (h : Buying g₀ g l₀ l f) : Coherent g l := by
  obtain ⟨_, _, rfl, position, selling, slot, answer, holding, since, mint⟩ := h
  exact ⟨.buying f position selling rfl slot answer holding since, mint⟩

theorem stamp (h : Buying g₀ g l₀ l f) {w : World} (later : g.seen ≤ w.clock) :
    Buying g₀ (g.stamp w l) l₀ l f where
  sales := ⟨h.sales.event, h.sales.pnlSoldAt, h.sales.pressing, h.sales.abandoned,
    le_trans h.sales.seen later⟩
  kept := h.kept
  locals := h.locals
  position := h.position
  selling := h.selling
  slot := h.slot
  answer := h.answer
  holding := h.holding
  since := h.since
  mint := by simp [h.locals]

theorem arm (h : Buying g₀ g l₀ l f) (armed : Bool) :
    Buying g₀ { g with armed := armed } l₀ l f where
  sales := h.sales.through ⟨rfl, rfl, rfl, rfl, rfl⟩
  kept := h.kept
  locals := h.locals
  position := h.position
  selling := h.selling
  slot := h.slot
  answer := h.answer
  holding := h.holding
  since := h.since
  mint := h.mint

end Buying

structure BuyEnded (g₀ g : SessionDiary) (l₀ l : SessionLocals) (res : Option Position) :
    Prop where
  sales : SameSales g₀ g
  locals : ∃ f, l = { l₀ with buying := f }
  mint : ∀ m, g.mint = some m → m = l₀.event.mint
  failed : res = none → g.slot = .free ∧ g.holding = false ∧ g.since = none
  bought : ∀ pos, res = some pos → g.slot = .admitted ∧ g.holding = true ∧
    g.since = some (pos.boughtAt, pos.entryTrigger) ∧ pos.mint = l₀.event.mint

theorem keeps_releaseSlot {g₀ : SessionDiary} {l₀ : SessionLocals} {f : BuyFrame}
    {Q : SessionDiary → SessionLocals → Option Position → Prop} (buying : Buying g₀ g l₀ l f)
    (reserved : f.slot ≠ none) (ended : ∀ g' l', BuyEnded g₀ g' l₀ l' none → Q g' l' none) :
    Keeps cfg dryRun releaseSlot Q g l := by
  have selling : l.selling = none := by rw [buying.locals]; exact buying.selling
  refine keeps_step buying.coherent ⟨fun free => reserved (buying.slot.mp free), ?_⟩
    fun w r later => ended _ _ ?_
  · simp [selling]
  · have moved := buying.stamp later
    have sales : SameSales g₀ (g.next cfg dryRun w l .fetchSub r) :=
      moved.sales.through ⟨rfl, rfl, rfl, rfl, rfl⟩
    exact ⟨sales, ⟨_, moved.locals⟩, moved.mint, fun _ => ⟨rfl, moved.holding, rfl⟩, by simp⟩

theorem keeps_recordDipBuy {g₀ : SessionDiary} {l₀ : SessionLocals} {f : BuyFrame}
    {k : Unit → SessionM α} (buying : Buying g₀ g l₀ l f)
    (armed : f.trigger = .dipBuy → g.armed = true) (admitted : g.slot = .admitted)
    (next : ∀ g', Buying g₀ g' l₀ l f → g'.slot = g.slot → Keeps cfg dryRun (k ()) Q g' l) :
    Keeps cfg dryRun (recordDipBuy cfg f.trigger >>= k) Q g l := by
  refine Async.wp_bind.mpr ?_
  rw [recordDipBuy]
  by_cases dip : f.trigger = .dipBuy
  · rw [if_pos dip]
    refine keeps_step buying.coherent ⟨rfl, armed dip, admitted⟩ ?_
    intro w r later
    exact next _ ((buying.arm false).stamp later) rfl
  · rw [if_neg dip]
    exact next _ buying rfl

theorem keeps_trackPosition {g₀ : SessionDiary} {l₀ : SessionLocals} {f : BuyFrame} {slot : Int}
    {mint : Pubkey} {sig : Signature}
    {Q : SessionDiary → SessionLocals → Option Position → Prop} (buying : Buying g₀ g l₀ l f)
    (placed : f.slot = some slot) (admitted : g.slot = .admitted)
    (ended : ∀ g' l' res, BuyEnded g₀ g' l₀ l' res → Q g' l' res) :
    Keeps cfg dryRun (trackPosition cfg mint f.trigger slot sig) Q g l := by
  have frame : l.buying = some f := by rw [buying.locals]
  have event : l.event = l₀.event := by rw [buying.locals]
  refine Async.wp_locals_bind.mpr (keeps_step buying.coherent ⟨by simp [frame], admitted⟩
    fun w₁ t timely => Async.wp_assign_bind.mpr ?_)
  -- from here on the frame carries `bought_at`
  have moved := buying.stamp timely.1
  have timed : Buying g₀ (g.next cfg dryRun w₁ l (.now .boughtAt) t) l₀
      { l with buying := some { trigger := f.trigger, slot := some slot, boughtAt := some t } }
      { trigger := f.trigger, slot := some slot, boughtAt := some t } :=
    { sales := moved.sales.through ⟨rfl, rfl, rfl, rfl, rfl⟩
      kept := buying.kept
      locals := by rw [buying.locals]
      position := buying.position
      selling := buying.selling
      slot := by simp [SessionDiary.entry, admitted]
      answer := fun s read => buying.answer s (placed.trans read)
      holding := buying.holding
      since := by simp [SessionDiary.entry, frame]
      mint := moved.mint }
  have limited : g.slot ≠ .overshoot := by simp [admitted]
  refine keeps_fetchBalance timed.coherent limited ?_
  intro w₂ balance later₂
  have fetched := timed.stamp later₂
  match balance with
  | .error e =>
      refine keeps_step fetched.coherent limited ?_
      intro w₃ _ later₃
      exact keeps_releaseSlot (fetched.stamp later₃) (by simp) fun g' l' => ended g' l' none
  | .ok b =>
      dsimp only
      split_ifs with zero
      · exact keeps_releaseSlot fetched (by simp) fun g' l' => ended g' l' none
      · have sound := fetched.sales.abandoned.trans fetched.kept
        refine keeps_step fetched.coherent
          ⟨fetched.holding, sound, admitted, _, t, rfl, rfl, fetched.since⟩ fun w₃ _ later₃ => ?_
        have told := fetched.stamp later₃
        refine ended _ _ _
          { sales := told.sales.through ⟨rfl, rfl, rfl, rfl, rfl⟩
            locals := ⟨_, told.locals⟩
            mint := told.mint
            failed := by simp
            bought := ?_ }
        rintro pos ⟨⟩
        exact ⟨admitted, rfl, by simp [SessionDiary.entry, frame], event ▸ rfl⟩

theorem keeps_buyInSlot {g₀ : SessionDiary} {l₀ : SessionLocals} {trigger : EntryTrigger}
    {mint : Pubkey} {Q : SessionDiary → SessionLocals → Option Position → Prop}
    (buying : Buying g₀ g l₀ l { trigger := trigger })
    (armed : trigger = .dipBuy → g.armed = true)
    (ended : ∀ g' l' res, BuyEnded g₀ g' l₀ l' res → Q g' l' res) :
    Keeps cfg dryRun (buyInSlot cfg dryRun mint trigger) Q g l := by
  have frame : l.buying = some { trigger := trigger } := by rw [buying.locals]
  have free : g.slot = .free := buying.slot.mpr rfl
  refine Async.wp_locals_bind.mpr (keeps_step buying.coherent ⟨by simp [frame], free⟩
    fun w₁ slot later₁ => Async.wp_assign_bind.mpr ?_)
  have moved := buying.stamp later₁
  have reserved : Buying g₀ (g.next cfg dryRun w₁ l .fetchAdd slot) l₀
      { l with buying := some { trigger := trigger, slot := some slot } }
      { trigger := trigger, slot := some slot } :=
    { sales := moved.sales.through ⟨rfl, rfl, rfl, rfl, rfl⟩
      kept := buying.kept
      locals := by rw [buying.locals]
      position := buying.position
      selling := buying.selling
      slot := by
        simp only [SessionDiary.next_eq, SessionDiary.stamp_slot, SessionDiary.entry]
        split_ifs <;> simp
      answer := fun s read => read
      holding := buying.holding
      since := buying.since
      mint := moved.mint }
  split_ifs with full
  · exact keeps_releaseSlot reserved (by simp) fun g' l' => ended g' l' none
  · have admitted : (g.next cfg dryRun w₁ l .fetchAdd slot).slot = .admitted := by
      simp [SessionDiary.entry, full]
    refine keeps_traderBuy reserved.coherent ⟨rfl, admitted⟩ ?_
    intro w₂ res later₂
    have bought := reserved.stamp later₂
    match res with
    | .ok (some sig) =>
        refine keeps_recordDipBuy bought armed admitted ?_
        intro g' recorded same
        exact keeps_trackPosition recorded rfl (same.trans admitted) ended
    | .ok none =>
        refine keeps_recordDipBuy bought armed admitted ?_
        intro g' recorded same
        exact keeps_releaseSlot recorded (by simp) fun g' l' => ended g' l' none
    | .error e => exact keeps_releaseSlot bought (by simp) fun g' l' => ended g' l' none

/-- Diary and locals between two sales, with or without a position. -/
structure Steady (cfg : Market.Config) (g : SessionDiary) (l : SessionLocals) : Prop where
  selling : l.selling = none
  buying : l.buying = none
  free : l.position = none → g.slot = .free ∧ g.holding = false ∧ g.since = none
  held : ∀ pos, l.position = some pos → g.slot = .admitted ∧ g.holding = true ∧
    g.since = some (pos.boughtAt, pos.entryTrigger) ∧ pos.mint = l.event.mint
  mint : ∀ m, g.mint = some m → m = l.event.mint
  sold : ∀ s, g.pnlSoldAt = some s → s ≤ g.seen ∧ ∃ t, l.lastSellAt = some t ∧ s ≤ t
  dipBuy : l.dipBuyDetector.enabled = cfg.dipBuy.enabled
  capitulation : l.capDetector.enabled = cfg.capitulation.enabled

theorem Steady.coherent (h : Steady cfg g l) : Coherent g l := by
  refine ⟨?_, h.mint⟩
  cases position : l.position with
  | none =>
      obtain ⟨slot, holding, since⟩ := h.free position
      exact .idle position h.selling h.buying slot holding since
  | some pos =>
      obtain ⟨slot, holding, since, mint⟩ := h.held pos position
      exact .opened pos position h.selling h.buying slot holding since mint

theorem Steady.limited (h : Steady cfg g l) : g.slot ≠ .overshoot := by
  cases position : l.position with
  | none => simp [(h.free position).1]
  | some pos => simp [(h.held pos position).1]

theorem Steady.stamp (h : Steady cfg g l) {w : World} (later : g.seen ≤ w.clock) :
    Steady cfg (g.stamp w l) l where
  selling := h.selling
  buying := h.buying
  free := h.free
  held := h.held
  mint := by simp
  sold s sold := ⟨le_trans (h.sold s sold).1 later, (h.sold s sold).2⟩
  dipBuy := h.dipBuy
  capitulation := h.capitulation

theorem keeps_tryBuy {mint : Pubkey} {trigger : EntryTrigger}
    {Q : SessionDiary → SessionLocals → Option Position → Prop} (steady : Steady cfg g l)
    (permitted : Permits cfg g l (.call (.tryBuy trigger)))
    (ended : ∀ g' l' res, BuyEnded g g' l l' res → Q g' l' res) :
    Keeps cfg dryRun (tryBuy cfg dryRun mint trigger) Q g l := by
  have position : l.position = none := permitted.1
  obtain ⟨free, holding, since⟩ := steady.free position
  refine keeps_step steady.coherent permitted fun w₁ r later₁ => Async.wp_assign_bind.mpr ?_
  have called : Buying g (g.next cfg dryRun w₁ l (.call (.tryBuy trigger)) r) l
      { l with buying := some { trigger := trigger } } { trigger := trigger } :=
    { sales := ⟨rfl, rfl, rfl, rfl, later₁⟩
      kept := permitted.2.2.2.2.1
      locals := rfl
      position := position
      selling := steady.selling
      slot := by simp [SessionDiary.entry, free]
      answer := by simp
      holding := holding
      since := since
      mint := by simp }
  split_ifs with dip
  · refine keeps_step called.coherent steady.limited ?_
    intro w₂ now timely
    have read := called.stamp timely.1
    refine keeps_step read.coherent ⟨rfl, timely.2.le, free⟩ ?_
    intro w₃ allowed later₃
    have checked := read.stamp later₃
    match allowed with
    | .error _ =>
        have sales := checked.sales.through ⟨rfl, rfl, rfl, rfl, rfl⟩
        have nothing := And.intro (checked.slot.mpr rfl) (And.intro checked.holding checked.since)
        exact ended _ _ _ ⟨sales, ⟨_, rfl⟩, checked.mint, fun _ => nothing, by simp⟩
    | .ok () => exact keeps_buyInSlot ((read.arm true).stamp later₃) (fun _ => rfl) ended
  · exact keeps_buyInSlot called (fun h => absurd h dip) ended

theorem keeps_enterPosition {mint : Pubkey} {trigger : EntryTrigger}
    {Q : SessionDiary → SessionLocals → Unit → Prop} (steady : Steady cfg g l)
    (permitted : Permits cfg g l (.call (.tryBuy trigger)))
    (entered : ∀ g' position, SameSales g g' →
      Steady cfg g' { l with position := position, buying := none } →
      Q g' { l with position := position, buying := none } ()) :
    Keeps cfg dryRun (enterPosition cfg dryRun mint trigger) Q g l := by
  refine Async.wp_bind.mpr (keeps_tryBuy steady permitted ?_)
  intro g' l' position ended
  obtain ⟨sales, ⟨f, rfl⟩, mint, failed, bought⟩ := ended
  refine entered g' position sales ⟨steady.selling, rfl, failed, ?_, mint, ?_, steady.dipBuy,
    steady.capitulation⟩
  · exact fun pos here => bought pos here
  · intro s sold
    obtain ⟨past, t, last, le⟩ := steady.sold s (sales.pnlSoldAt ▸ sold)
    exact ⟨le_trans past sales.seen, t, last, le⟩

/-! ### One tick -/

/-- After the exits of a tick read at `now`: `done` says whether an entry mode has had its turn. -/
structure Ticking (cfg : Market.Config) (u : PriceUpdate) (now : Instant) (done : Prop)
    (g : SessionDiary) (l : SessionLocals) : Prop where
  steady : Steady cfg g l
  read : now ≤ g.seen
  pressing : g.pressing = false
  abandoned : g.abandoned = false
  called : ¬ done → g.called = false
  event : ∃ sample : Sample, g.event = some (.tick (some sample)) ∧ sample.update = u
  sound : l.rugGuard.isRugged cfg.rug u.priceSol u.poolSol = none

section Entries

variable {u : PriceUpdate} {now : Instant} {mint : Pubkey}
  {Q : SessionDiary → SessionLocals → Unit → Prop}

theorem Ticking.weaken {done done' : Prop} (h : Ticking cfg u now done g l)
    (weaker : done → done') : Ticking cfg u now done' g l :=
  ⟨h.steady, h.read, h.pressing, h.abandoned, fun fresh => h.called fun d => fresh (weaker d),
    h.event, h.sound⟩

theorem Ticking.feed {done : Prop} (h : Ticking cfg u now done g l) {dip : DipBuyDetector}
    {cap : CapitulationDetector} (aggregator : CandleAggregator) (macd : Macd)
    (sameDip : dip.enabled = l.dipBuyDetector.enabled)
    (sameCap : cap.enabled = l.capDetector.enabled) :
    Ticking cfg u now done g { l with
      dipBuyDetector := dip
      capDetector := cap
      aggregator := aggregator
      macd := macd } :=
  ⟨⟨h.steady.selling, h.steady.buying, h.steady.free, h.steady.held, h.steady.mint, h.steady.sold,
    sameDip.trans h.steady.dipBuy, sameCap.trans h.steady.capitulation⟩, h.read, h.pressing,
    h.abandoned, h.called, h.event, h.sound⟩

theorem keeps_gatedEntry {trigger : EntryTrigger} (ticking : Ticking cfg u now False g l)
    (chosen : trigger = entryTrigger cfg)
    (turned : ∀ g' l', Ticking cfg u now True g' l' → Q g' l' ()) :
    Keeps cfg dryRun (gatedEntry cfg dryRun mint now trigger) Q g l := by
  obtain ⟨sample, event, rfl⟩ := ticking.event
  -- the gates that a `try_buy` has passed, but for the cooldown
  have enter (position : l.position = none)
      (cooled : ∀ s, g.pnlSoldAt = some s → s + fromSecs cfg.macd.cooldownSecs ≤ g.seen) :
      Keeps cfg dryRun (enterPosition cfg dryRun mint trigger) Q g l := by
    have permitted : Permits cfg g l (.call (.tryBuy trigger)) :=
      ⟨position, ticking.steady.selling, ticking.steady.buying, ticking.called id,
        ticking.abandoned, chosen, cooled, sample, event, ticking.sound⟩
    refine keeps_enterPosition ticking.steady permitted ?_
    intro g' position' sales steady
    exact turned _ _
      { steady := steady
        read := le_trans ticking.read sales.seen
        pressing := sales.pressing.trans ticking.pressing
        abandoned := sales.abandoned.trans ticking.abandoned
        called := fun fresh => absurd trivial fresh
        event := ⟨sample, sales.event.trans event, rfl⟩
        sound := ticking.sound }
  refine Async.wp_locals_bind.mpr ?_
  split_ifs with held
  · exact turned _ _ (ticking.weaken False.elim)
  · have position : l.position = none := by simpa using held
    cases last : l.lastSellAt with
    | none =>
        refine enter position ?_
        intro s sold
        obtain ⟨_, t, some_last, _⟩ := ticking.steady.sold s sold
        rw [last] at some_last
        cases some_last
    | some t =>
        dsimp only
        split_ifs with cooling
        · exact turned _ _ (ticking.weaken False.elim)
        · refine enter position ?_
          intro s sold
          obtain ⟨past, t', some_last, le⟩ := ticking.steady.sold s sold
          rw [last] at some_last
          cases some_last
          have elapsed : fromSecs cfg.macd.cooldownSecs ≤ now - t := not_lt.mp cooling
          rcases Nat.le_total now t with before | after
          · rw [Nat.sub_eq_zero_of_le before] at elapsed
            exact (Nat.add_le_add_left elapsed s).trans past
          · calc s + fromSecs cfg.macd.cooldownSecs ≤ t + (now - t) := Nat.add_le_add le elapsed
              _ = now := Nat.add_sub_cancel' after
              _ ≤ g.seen := ticking.read

theorem keeps_dipBuyEntry (ticking : Ticking cfg u now False g l)
    (turned : ∀ g' l', Ticking cfg u now (cfg.dipBuy.enabled = true) g' l' → Q g' l' ()) :
    Keeps cfg dryRun (dipBuyEntry cfg dryRun mint now u) Q g l := by
  refine Async.wp_locals_bind.mpr ?_
  split_ifs with enabled
  · have active : cfg.dipBuy.enabled = true := ticking.steady.dipBuy ▸ enabled
    have same : ((l.dipBuyDetector.observe now u.priceSol u.poolSol).check now).1.enabled =
      l.dipBuyDetector.enabled := by simp
    generalize (l.dipBuyDetector.observe now u.priceSol u.poolSol).check now = checked at same ⊢
    obtain ⟨detector, fired⟩ := checked
    have fed := ticking.feed l.aggregator l.macd same (Eq.refl l.capDetector.enabled)
    refine Async.wp_assign_bind.mpr ?_
    cases fired with
    | none => exact turned _ _ (fed.weaken False.elim)
    | some signal =>
        exact keeps_gatedEntry fed (by simp [entryTrigger, active]) fun g' l' ticked =>
          turned _ _ (ticked.weaken fun _ => active)
  · exact turned _ _ (ticking.weaken False.elim)

theorem keeps_capitulationEntry (ticking : Ticking cfg u now (cfg.dipBuy.enabled = true) g l)
    (turned : ∀ g' l', Ticking cfg u now
      (cfg.dipBuy.enabled = true ∨ cfg.capitulation.enabled = true) g' l' → Q g' l' ()) :
    Keeps cfg dryRun (capitulationEntry cfg dryRun mint now u) Q g l := by
  refine Async.wp_locals_bind.mpr ?_
  split_ifs with enabled
  · rw [Bool.and_eq_true, Bool.not_eq_true', ticking.steady.dipBuy, ticking.steady.capitulation]
      at enabled
    obtain ⟨inactive, active⟩ := enabled
    have same : ((l.capDetector.observe now u.priceSol).check now u.priceSol).1.enabled =
      l.capDetector.enabled := by simp
    generalize (l.capDetector.observe now u.priceSol).check now u.priceSol = checked at same ⊢
    obtain ⟨detector, fired⟩ := checked
    have fed := ticking.feed l.aggregator l.macd (Eq.refl l.dipBuyDetector.enabled) same
    refine Async.wp_assign_bind.mpr ?_
    cases fired with
    | none => exact turned _ _ (fed.weaken .inl)
    | some signal =>
        exact keeps_gatedEntry (fed.weaken fun dip => by simp [inactive] at dip)
          (by simp [entryTrigger, inactive, active]) fun g' l' ticked =>
            turned _ _ (ticked.weaken fun _ => .inr active)
  · exact turned _ _ (ticking.weaken .inl)

theorem keeps_macdEntry (ticking : Ticking cfg u now
      (cfg.dipBuy.enabled = true ∨ cfg.capitulation.enabled = true) g l)
    (turned : ∀ g' l', Ticking cfg u now True g' l' → Q g' l' ()) :
    Keeps cfg dryRun (macdEntry cfg dryRun mint now u) Q g l := by
  refine Async.wp_locals_bind.mpr ?_
  generalize l.aggregator.onTick u.priceSol now = ticked
  obtain ⟨aggregator, closed⟩ := ticked
  have fed := ticking.feed aggregator l.macd (Eq.refl l.dipBuyDetector.enabled)
    (Eq.refl l.capDetector.enabled)
  refine Async.wp_assign_bind.mpr ?_
  cases closed with
  | none => exact turned _ _ (fed.weaken fun _ => trivial)
  | some close =>
      dsimp only
      generalize l.macd.onClose close = crossed
      obtain ⟨macd, event⟩ := crossed
      have fed := ticking.feed aggregator macd (Eq.refl l.dipBuyDetector.enabled)
        (Eq.refl l.capDetector.enabled)
      refine Async.wp_assign_bind.mpr ?_
      match event with
      | .crossover _ .bullish =>
          dsimp only
          split_ifs with dip cap
          · exact turned _ _ (fed.weaken fun _ => trivial)
          · exact turned _ _ (fed.weaken fun _ => trivial)
          · rw [ticking.steady.dipBuy] at dip
            rw [ticking.steady.capitulation] at cap
            exact keeps_gatedEntry (fed.weaken fun modes => modes.elim dip cap)
              (by simp [entryTrigger, dip, cap]) turned
      | .crossover _ .bearish => exact turned _ _ (fed.weaken fun _ => trivial)
      | .noCross _ => exact turned _ _ (fed.weaken fun _ => trivial)
      | .warmup => exact turned _ _ (fed.weaken fun _ => trivial)

end Entries

/-! ### Exits -/

theorem Steady.take {pos : Position} (h : Steady cfg g l) (position : l.position = some pos) :
    Selling g l.take pos ∧ g.holding = true := by
  obtain ⟨slot, holding, since, mint⟩ := h.held pos position
  exact ⟨⟨rfl, position, h.buying, slot, since, mint, h.mint⟩, holding⟩

theorem SaleEnded.settled {g' : SessionDiary} {pos : Position} {reason : SellReason}
    {res : Except BoxError Unit} (h : SaleEnded g g' l.take pos reason res)
    (steady : Steady cfg g l) (final : (!res.isOk && reason.isExit) = false)
    (sold : (res.isOk && reason.isExit) = false) {w : World} (later : g'.seen ≤ w.clock) :
    Steady cfg (({ g' with slot := .free, since := none } : SessionDiary).stamp w l.take)
      l.take.settle where
  selling := rfl
  buying := steady.buying
  free _ := ⟨rfl, h.holding.trans final, rfl⟩
  held _ h := by cases h
  mint := by simp [SessionLocals.settle]
  sold s hs := by
    obtain ⟨past, last⟩ := steady.sold s (h.unsold sold ▸ hs)
    exact ⟨le_trans (le_trans past h.seen) later, last⟩
  dipBuy := steady.dipBuy
  capitulation := steady.capitulation

theorem keeps_sellForGood {pct : Position → ℚ} {reason : SellReason}
    {Q : SessionDiary → SessionLocals → Unit → Prop} (steady : Steady cfg g l)
    (fresh : l.position.isSome → g.verdict = none) (forced : reason.isExit = false)
    (gone : ∀ g' l', Steady cfg g' l' → l'.position = none → Q g' l' ()) :
    Keeps cfg dryRun (sellForGood cfg dryRun pct reason) Q g l := by
  refine Async.wp_locals_bind.mpr ?_
  cases position : l.position with
  | none => exact gone g l steady position
  | some pos =>
      obtain ⟨selling, holding⟩ := steady.take position
      have unsure (res : Except BoxError Unit) : (!res.isOk && reason.isExit) = false := by
        simp [forced]
      refine Async.wp_assign_bind.mpr (Async.wp_bind.mpr (keeps_trySell selling holding
        (fresh (by simp [position])) fun g' res ended => ?_))
      refine keeps_step (ended.coherent selling (unsure res)) ⟨by simp [ended.slot], fun _ => ?_⟩
        fun w r later => ?_
      · exact ⟨_, _, ended.verdict, ended.why, .inr (by simp [forced])⟩
      · exact gone _ _ (ended.settled steady (unsure res) (by simp [forced]) later) rfl

/-- A tick on which the guard is silent, before its exits. -/
structure Arrived (cfg : Market.Config) (u : PriceUpdate) (g : SessionDiary)
    (l : SessionLocals) : Prop where
  steady : Steady cfg g l
  fresh : g.verdict = none
  pressing : g.pressing = l.position.isSome
  abandoned : g.abandoned = false
  called : g.called = false
  event : ∃ sample : Sample, g.event = some (.tick (some sample)) ∧ sample.update = u
  sound : l.rugGuard.isRugged cfg.rug u.priceSol u.poolSol = none

theorem Ticking.stamp {u : PriceUpdate} {now : Instant} {done : Prop}
    (h : Ticking cfg u now done g l) {w : World} (later : g.seen ≤ w.clock) :
    Ticking cfg u w.clock done (g.stamp w l) l :=
  ⟨h.steady.stamp later, le_refl _, h.pressing, h.abandoned, h.called, h.event, h.sound⟩

theorem not_overdue_of_decideExit {pos : Position} {pct : ℚ} {now : Instant}
    {universalTiers dipBuyTiers : List TrailTier}
    (hold : decideExit pos pct (asSecs (durationSince now pos.boughtAt)) cfg.trading cfg.dipBuyExit
      universalTiers dipBuyTiers = none) :
    overdue cfg (pos.boughtAt, pos.entryTrigger) now = false := by
  by_contra late
  simp only [overdue, Bool.not_eq_false, Bool.and_eq_true, decide_eq_true_eq] at late
  have reached : maxHold pos.entryTrigger cfg ≤ asSecs (durationSince now pos.boughtAt) :=
    (le_asSecs_iff _ _).mpr (Nat.le_sub_of_add_le' late.2)
  rw [decideExit_of_maxHold pos pct _ cfg universalTiers dipBuyTiers late.1 reached] at hold
  cases hold

theorem Steady.peak {pos : Position} (h : Steady cfg g l) (position : l.position = some pos)
    (pct : ℚ) : Steady cfg g { l with position := some (pos.updatePeak pct) } where
  selling := h.selling
  buying := h.buying
  free h := by cases h
  held pos' here := by
    cases here
    exact h.held pos position
  mint := h.mint
  sold := h.sold
  dipBuy := h.dipBuy
  capitulation := h.capitulation

theorem Steady.press (h : Steady cfg g l) (pressing : Bool) :
    Steady cfg { g with pressing := pressing } l :=
  ⟨h.selling, h.buying, h.free, h.held, h.mint, h.sold, h.dipBuy, h.capitulation⟩

theorem keeps_exitSale {u : PriceUpdate} {pos : Position} {pct : ℚ} {reason : ExitReason}
    {Q : SessionDiary → SessionLocals → Unit → Prop} (steady : Steady cfg g l)
    (position : l.position = some pos) (fresh : g.verdict = none) (abandoned : g.abandoned = false)
    (called : g.called = false)
    (event : ∃ sample : Sample, g.event = some (.tick (some sample)) ∧ sample.update = u)
    (sound : l.rugGuard.isRugged cfg.rug u.priceSol u.poolSol = none)
    (passed : ∀ g' l', Ticking cfg u g'.seen False g' l' → Q g' l' ()) :
    Keeps cfg dryRun (do
      Async.assign SessionLocals.take
      let res ← trySell cfg dryRun pos pct (.exit reason)
      match res with
      | .ok () => do
          let _ ← fetchSub
          Async.assign SessionLocals.settle
          let soldAt ← instantNow .soldAt
          Async.assign fun l => { l with lastSellAt := some soldAt }
      | .error _ => Async.assign fun l => l.restore pos) Q g l := by
  obtain ⟨selling, holding⟩ := steady.take position
  refine Async.wp_assign_bind.mpr (Async.wp_bind.mpr (keeps_trySell selling holding fresh
    fun g' res ended => ?_))
  have kept : g'.abandoned = false := by simp [ended.abandoned, abandoned, SellReason.isExit]
  match res with
  | .ok () =>
      refine keeps_step (ended.coherent selling rfl) ⟨by simp [ended.slot], fun h => ?_⟩
        fun w₁ _ later₁ => Async.wp_assign_bind.mpr ?_
      · exact ⟨_, _, ended.verdict, ended.why, .inl rfl⟩
      have mint (w : World) (m : String)
          (here : (SessionDiary.stamp { g' with slot := .free, since := none } w l.take).mint =
            some m) : m = l.event.mint := by
        simpa [SessionLocals.take] using here.symm
      have idle : Coherent (SessionDiary.stamp { g' with slot := .free, since := none } w₁ l.take)
          l.take.settle := ⟨.idle rfl rfl selling.buying rfl ended.holding rfl, mint w₁⟩
      refine keeps_step idle (by simp [Permits, SessionDiary.entry]) fun w₂ soldAt timely => ?_
      refine passed _ _
        { steady :=
            { selling := rfl
              buying := selling.buying
              free := fun _ => ⟨rfl, ended.holding, rfl⟩
              held := nofun
              mint := by simp
              sold := fun s sold => ?_
              dipBuy := steady.dipBuy
              capitulation := steady.capitulation }
          read := le_refl _
          pressing := ended.pressing
          abandoned := kept
          called := fun _ => ended.called.trans called
          event := ended.event.symm ▸ event
          sound := sound }
      obtain ⟨s', at_sale, before⟩ := ended.sold rfl
      obtain rfl : s' = s := Option.some.inj (at_sale.symm.trans sold)
      have past : s' ≤ w₂.clock := le_trans before (le_trans later₁ timely.1)
      exact ⟨past, soldAt, rfl, timely.2 ▸ past⟩
  | .error e =>
      refine passed _ _
        { steady :=
            { selling := rfl
              buying := selling.buying
              free := nofun
              held := ?_
              mint := ended.mint
              sold := fun s sold => ?_
              dipBuy := steady.dipBuy
              capitulation := steady.capitulation }
          read := le_refl _
          pressing := ended.pressing
          abandoned := kept
          called := fun _ => ended.called.trans called
          event := ended.event.symm ▸ event
          sound := sound }
      · rintro pos' ⟨⟩
        exact ⟨ended.slot, ended.holding, ended.since, selling.posMint⟩
      · obtain ⟨past, last⟩ := steady.sold s (ended.unsold rfl ▸ sold)
        exact ⟨le_trans past ended.seen, last⟩

theorem keeps_pnlExit {u : PriceUpdate} {price : ℚ}
    {Q : SessionDiary → SessionLocals → Unit → Prop} (arrived : Arrived cfg u g l)
    (passed : ∀ g' l', Ticking cfg u g'.seen False g' l' → Q g' l' ()) :
    Keeps cfg dryRun (pnlExit cfg dryRun price) Q g l := by
  obtain ⟨steady, fresh, pressing, abandoned, called, event, sound⟩ := arrived
  refine Async.wp_locals_bind.mpr ?_
  cases position : l.position with
  | none =>
      rw [position] at pressing
      exact passed g l ⟨steady, le_refl _, pressing, abandoned, fun _ => called, event, sound⟩
  | some pos =>
      have peaked := steady.peak position (pos.pnlPct price)
      dsimp only
      generalize pos.updatePeak (pos.pnlPct price) = kept at peaked ⊢
      obtain ⟨_, _, since, _⟩ := peaked.held kept rfl
      refine Async.wp_assign_bind.mpr (keeps_step peaked.coherent peaked.limited ?_)
      intro w₁ now timely
      have aged := (peaked.press (g.since.any fun x => overdue cfg x now)).stamp timely.1
      cases decided : decideExit kept (pos.pnlPct price)
        (asSecs (durationSince now kept.boughtAt)) cfg.trading cfg.dipBuyExit
        (parseTiers cfg.trading.dynamicTrailingStopThresholds)
        (parseTiers cfg.dipBuyExit.trailTiers) with
      | none =>
          refine passed _ _ ⟨aged, le_refl _, ?_, abandoned, fun _ => called, event, sound⟩
          change g.since.any (fun x => overdue cfg x now) = false
          rw [since]
          exact not_overdue_of_decideExit decided
      | some reason => exact keeps_exitSale aged rfl fresh abandoned called event sound passed

/-! ### The session -/

/-- Where the select loop stands, and where it leaves off. -/
structure AtSelect (cfg : Market.Config) (g : SessionDiary) (l : SessionLocals) : Prop where
  steady : Steady cfg g l
  pressing : g.pressing = false
  abandoned : g.abandoned = false

structure Left (cfg : Market.Config) (g : SessionDiary) (l : SessionLocals) : Prop where
  steady : Steady cfg g l
  fresh : l.position.isSome → g.verdict = none

theorem keeps_onTick {mint : Pubkey} {sample : Sample}
    {Q : SessionDiary → SessionLocals → Option Unit → Prop} (steady : Steady cfg g l)
    (fresh : g.verdict = none) (pressing : g.pressing = l.position.isSome)
    (abandoned : g.abandoned = false) (called : g.called = false)
    (event : g.event = some (.tick (some sample)))
    (again : ∀ g' l', AtSelect cfg g' l' → Q g' l' none)
    (leave : ∀ g' l', Left cfg g' l' → Q g' l' (some ())) :
    Keeps cfg dryRun (onTick cfg dryRun mint sample.update) Q g l := by
  have observed : Steady cfg g { l with
      lastPrice := some sample.update.priceSol
      rugGuard := l.rugGuard.observe sample.update.priceSol sample.update.poolSol } :=
    ⟨steady.selling, steady.buying, steady.free, steady.held, steady.mint, steady.sold,
      steady.dipBuy, steady.capitulation⟩
  refine Async.wp_assign_bind.mpr (Async.wp_locals_bind.mpr ?_)
  cases rugged : (l.rugGuard.observe sample.update.priceSol sample.update.poolSol).isRugged cfg.rug
    sample.update.priceSol sample.update.poolSol with
  | some reason =>
      refine Async.wp_bind.mpr (keeps_sellForGood observed (fun _ => fresh) rfl
        fun g' l' steady' gone => leave g' l' ⟨steady', fun held => ?_⟩)
      simp [gone] at held
  | none =>
      refine Async.wp_bind.mpr (keeps_pnlExit ⟨observed, fresh, pressing, abandoned, called,
        ⟨sample, event, rfl⟩, rugged⟩ fun g₁ l₁ passed => ?_)
      refine keeps_step passed.steady.coherent passed.steady.limited ?_
      intro w now timely
      have ticked := passed.stamp timely.1
      rw [← timely.2] at ticked
      refine Async.wp_bind.mpr (keeps_dipBuyEntry ticked ?_)
      intro g₂ l₂ h₂
      refine Async.wp_bind.mpr (keeps_capitulationEntry h₂ ?_)
      intro g₃ l₃ h₃
      refine Async.wp_bind.mpr (keeps_macdEntry h₃ ?_)
      intro g₄ l₄ h₄
      exact again g₄ l₄ ⟨h₄.steady, h₄.pressing, h₄.abandoned⟩

theorem keeps_sessionRound {mint : Pubkey} {Q : SessionDiary → SessionLocals → Option Unit → Prop}
    (standing : AtSelect cfg g l) (again : ∀ g' l', AtSelect cfg g' l' → Q g' l' none)
    (leave : ∀ g' l', Left cfg g' l' → Q g' l' (some ())) :
    Keeps cfg dryRun (sessionRound cfg dryRun mint) Q g l := by
  obtain ⟨steady, pressing, abandoned⟩ := standing
  refine keeps_step steady.coherent ⟨pressing, steady.selling, steady.buying⟩
    fun w event later => ?_
  have selected : Steady cfg (g.next cfg dryRun w l .select event) l :=
    ⟨steady.selling, steady.buying, steady.free, steady.held, by simp,
      fun s sold => ⟨le_trans (steady.sold s sold).1 later, (steady.sold s sold).2⟩,
      steady.dipBuy, steady.capitulation⟩
  match event with
  | .deadline => exact leave _ _ ⟨selected, fun _ => rfl⟩
  | .tick none => exact leave _ _ ⟨selected, fun _ => rfl⟩
  | .tick (some sample) => exact keeps_onTick selected rfl rfl abandoned rfl rfl again leave

/-- A session that has not begun to trade. -/
structure Fresh (g : SessionDiary) (l : SessionLocals) : Prop where
  position : l.position = none
  selling : l.selling = none
  buying : l.buying = none
  slot : g.slot = .free
  holding : g.holding = false
  since : g.since = none
  pressing : g.pressing = false
  abandoned : g.abandoned = false
  unsold : g.pnlSoldAt = none
  mint : ∀ m, g.mint = some m → m = l.event.mint

theorem Fresh.coherent (h : Fresh g l) : Coherent g l :=
  ⟨.idle h.position h.selling h.buying h.slot h.holding h.since, h.mint⟩

theorem Fresh.limited (h : Fresh g l) : g.slot ≠ .overshoot := by simp [h.slot]

theorem Fresh.stamp (h : Fresh g l) (w : World) : Fresh (g.stamp w l) l :=
  ⟨h.position, h.selling, h.buying, h.slot, h.holding, h.since, h.pressing, h.abandoned, h.unsold,
    by simp⟩

/-- A session that holds nothing any more. -/
structure Ended (g : SessionDiary) (l : SessionLocals) : Prop where
  coherent : Coherent g l
  position : l.position = none
  selling : l.selling = none
  buying : l.buying = none

theorem Fresh.ended (h : Fresh g l) : Ended g l :=
  ⟨h.coherent, h.position, h.selling, h.buying⟩

theorem keeps_runSession {mint : Pubkey} (fresh : Fresh g l) :
    Keeps cfg dryRun (runSession cfg dryRun mint) (fun g l _ => Ended g l) g l := by
  refine keeps_step fresh.coherent fresh.limited fun w₁ sessionStart _ =>
    Async.wp_locals_bind.mpr ?_
  have started := fresh.stamp w₁
  refine keeps_step started.coherent ⟨fresh.position, fresh.selling, fresh.buying⟩
    fun w₂ _ _ => Async.wp_assign_bind.mpr ?_
  have reset : Fresh ((g.stamp w₁ l).stamp w₂ l) (.start cfg l.event sessionStart) :=
    ⟨rfl, rfl, rfl, fresh.slot, fresh.holding, fresh.since, fresh.pressing, fresh.abandoned,
      fresh.unsold, by simp [SessionLocals.start]⟩
  refine keeps_step reset.coherent reset.limited ?_
  intro w₃ _ _
  have armed := reset.stamp w₃
  have steady : Steady cfg (((g.stamp w₁ l).stamp w₂ l).stamp w₃ (.start cfg l.event sessionStart))
      (.start cfg l.event sessionStart) :=
    ⟨rfl, rfl, fun _ => ⟨armed.slot, armed.holding, armed.since⟩, nofun, armed.mint,
      fun s sold => absurd (armed.unsold.symm.trans sold) nofun, rfl, rfl⟩
  refine Async.wp_bind.mpr (Async.wp_loop (AtSelect cfg) ⟨steady, armed.pressing, armed.abandoned⟩
    (fun g l h => h.steady.coherent) fun g l standing => ?_)
  refine keeps_sessionRound standing (fun g' l' h => h) ?_
  intro g' l' left
  refine Async.wp_locals_bind.mpr ?_
  refine keeps_sellForGood left.steady left.fresh rfl ?_
  intro g'' l'' steady gone
  exact ⟨steady.coherent, gone, steady.selling, steady.buying⟩

theorem fresh_keeps {o : Op} (permitted : ∀ g l, Fresh g l → Permits cfg g l o)
    (unnoted : ∀ (g : SessionDiary) w l r, g.next cfg dryRun w l o r = g.stamp w l) :
    Async.Keeps (sessionProtocol cfg dryRun) Fresh (Async.perform o : SessionM (Reply o)) := by
  apply Async.Keeps.perform
  · exact fun _ _ fresh => fresh.coherent
  · exact permitted
  · intro g w l r fresh _
    change Fresh (g.next cfg dryRun w l o r) l
    rw [unnoted]
    exact fresh.stamp w

/-- A spawned session keeps its discipline to the end, and ends without a position or a slot. -/
theorem keeps_sessionTask (ev : MigrationEvent) (t : Instant) :
    Keeps cfg dryRun (sessionTask cfg dryRun) (fun g l _ => Ended g l) {} (.start cfg ev t) := by
  have fresh : Fresh {} (.start cfg ev t) := ⟨rfl, rfl, rfl, rfl, rfl, rfl, rfl, rfl, rfl, nofun⟩
  apply sessionTask_wp (fun _ => fresh_keeps (fun _ _ fresh => fresh.limited) fun _ _ _ _ => rfl)
    (fun _ _ fresh => fresh.ended) (fun _ _ _ _ fresh => keeps_runSession fresh)
    (fun _ => fresh_keeps (fun _ _ fresh => fresh.limited) fun _ _ _ _ => rfl) ?_ fresh
  intro g l name symbol fresh
  exact ⟨fresh.position, fresh.selling, fresh.buying, fresh.slot, fresh.holding, fresh.since,
    fresh.pressing, fresh.abandoned, fresh.unsold, fresh.mint⟩

end Discipline

end HadesPsTrader.Tasks
