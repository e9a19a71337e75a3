/- Module: HadesPsTrader/Runs/CopyExits
   source: src/copy_session.rs, src/rug.rs
   digest: What a copy session does when it is woken, over the whole time it monitors. -/

import HadesPsTrader.Runs.CopyMode
import HadesPsTrader.Runs.CopyPieces
import HadesPsTrader.Tasks.CopyExitRules

set_option autoImplicit false
set_option relaxedAutoImplicit false

namespace HadesPsTrader.Tasks

open HadesPsTrader.Market HadesPsTrader.Chain HadesPsTrader.Interaction

inductive CopyPlace
  /-- Ahead of its monitor loop. -/
  | apart
  | waiting
  | woken (e : CopyEvent)
  /-- Past a tick that was no rug, with the clock reading for the age. -/
  | aged (now : Instant)
  | selling (reason : SellReason)
  /-- Past its last sell. -/
  | left
  deriving DecidableEq

/-- What is noted of a copy session from the start of its loop on. -/
structure CopyWatch where
  entryPriceSol : ℚ := 0
  boughtAt : Instant := 0
  /-- The price and the pool liquidity of each tick. -/
  ticks : List (ℚ × ℚ) := []
  place : CopyPlace := .apart

/-- A sell that is tried again when it fails. -/
def SellReason.retried : SellReason → Bool
  | .exit _ => true
  | _ => false

inductive CopyTurn
  | sell (reason : SellReason)
  | age
  | wait
  deriving DecidableEq

def Op.turn? : Op → Option CopyTurn
  | .call (.doSell reason) => some (.sell reason)
  | .now .exitAge => some .age
  | .copySelect _ => some .wait
  | _ => none

def copySale (cfg : Market.Config) (alpha : AlphaTrade) : SellAllParams :=
  { mint := alpha.mint
    symbol := alpha.symbol
    slippagePct := cfg.trading.slippage
    priorityFeeSol := cfg.trading.priorityFeeSol
    maxRetries := cfg.trading.sellTxRetries }

namespace CopyWatch

variable (cfg : Market.Config) (dryRun : Bool) (alpha : AlphaTrade) (g : CopyWatch)

def pnl (priceSol : ℚ) : ℚ := Copy.pnlPct g.entryPriceSol priceSol

def peak : ℚ := (g.ticks.map fun t => g.pnl t.1).foldl max 0

def lastPct : ℚ := (g.ticks.getLast?.map fun t => g.pnl t.1).getD 0

/-- How the position stands when its age is read. -/
def standing (now : Instant) : Standing :=
  ⟨g.peak, g.lastPct, asSecs (durationSince now g.boughtAt)⟩

def seen (tick : ℚ × ℚ) : CopyWatch := { g with ticks := g.ticks ++ [tick] }

def goes (place : CopyPlace) : CopyWatch := { g with place := place }

def next (l : CopyLocals) : (o : Op) → Reply o → CopyWatch
  | .sleepUntil _, _ => { g with
      entryPriceSol := l.entryPriceSol
      boughtAt := l.boughtAt.getD 0
      ticks := []
      place := .waiting }
  | .copySelect _, .tick (some sample) =>
      (g.seen (sample.update.priceSol, sample.update.poolSol)).goes (.woken (.tick (some sample)))
  | .copySelect _, e => g.goes (.woken e)
  | .now .exitAge, t => g.goes (.aged t)
  | .call (.doSell reason), _ => g.goes (.selling reason)
  | .sellAll p, answers => match g.place with
      | .selling reason =>
          g.goes (if reason.retried && !soldOk cfg dryRun p answers then .waiting else .left)
      | _ => g
  | _, _ => g

def TurnIs (turn : Option CopyTurn) : Prop :=
  match g.place with
  | .apart => turn = none
  | .waiting => turn = some .wait
  | .woken .deadline => turn = some (.sell .copyMaxHold)
  | .woken (.shutdown (.lagged _)) => turn = some .wait
  | .woken (.shutdown _) => turn = some (.sell .shutdown)
  | .woken (.mirror (.got sell)) =>
      AlphaCloses cfg.copyTrade alpha sell ∧ turn = some (.sell .mirrorAlphaClosed) ∨
        ¬ AlphaCloses cfg.copyTrade alpha sell ∧ turn = some .wait
  | .woken (.mirror _) => turn = some .wait
  | .woken (.tick none) => turn = some (.sell .copyForcedExit)
  | .woken (.tick (some _)) =>
      (cfg.rug.Due g.ticks ∧ ∃ rug, turn = some (.sell (.rugDetected rug))) ∨
        ¬ cfg.rug.Due g.ticks ∧ turn = some .age
  | .aged now =>
      (∃ exit, CopyExitGiven cfg.copyTrade (g.standing now) (some exit) ∧
        turn = some (.sell (.exit exit))) ∨
      CopyExitGiven cfg.copyTrade (g.standing now) none ∧ turn = some .wait
  | .selling _ => turn = none
  | .left => turn = none

/-- What a copy session does: the turn that is due, and one sale of the copied token in a sell. -/
structure Permits (o : Op) : Prop where
  turn : g.TurnIs cfg alpha o.turn?
  sells : ∀ p, o = .sellAll p ↔ (∃ reason, g.place = .selling reason) ∧ p = copySale cfg alpha

def Free : Prop := g.place = .apart ∨ g.place = .left

end CopyWatch

def watchProtocol (cfg : Market.Config) (dryRun : Bool) :
    Protocol CopyWatch World CopyLocals Op Reply where
  coherent _ _ := True
  guard g l o := g.Permits cfg l.alpha o
  valid _ _ _ _ _ := True
  next g _ l o r := g.next cfg dryRun l o r

def Op.isIdle : Op → Bool
  | .call _ => false
  | .now .exitAge => false
  | .copySelect _ => false
  | .sellAll _ => false
  | .sleepUntil _ => false
  | _ => true

section Walk

variable {cfg : Market.Config} {dryRun : Bool} {α : Type} {g : CopyWatch} {l : CopyLocals}

namespace CopyWatch

variable {alpha : AlphaTrade}

theorem next_idle {o : Op} {r : Reply o} (idle : o.isIdle = true) :
    g.next cfg dryRun l o r = g := by
  cases o with
  | call c => cases idle
  | now site => cases site <;> first | rfl | cases idle
  | copySelect mirrorOpen => cases idle
  | sellAll p => cases idle
  | sleepUntil d => cases idle
  | _ => rfl

theorem permits_of_turn {o : Op} (turn : g.TurnIs cfg alpha o.turn?)
    (no_sale : ∀ p, o ≠ .sellAll p) (no_sell : ∀ reason, g.place ≠ .selling reason) :
    g.Permits cfg alpha o := by
  refine ⟨turn, fun p => iff_of_false (no_sale p) ?_⟩
  rintro ⟨⟨reason, here⟩, _⟩
  exact no_sell reason here

theorem Free.permits {o : Op} (free : g.Free) (quiet : o.turn? = none)
    (no_sale : ∀ p, o ≠ .sellAll p) : g.Permits cfg alpha o := by
  apply permits_of_turn _ no_sale
  · intro reason here
    rcases free with apart | left
    · cases apart.symm.trans here
    · cases left.symm.trans here
  · rcases free with apart | left
    · rw [TurnIs, apart]
      exact quiet
    · rw [TurnIs, left]
      exact quiet

theorem permits_sale {reason : SellReason} (here : g.place = .selling reason) :
    g.Permits cfg alpha (.sellAll (copySale cfg alpha)) := by
  constructor
  · rw [TurnIs, here]
    rfl
  · intro p
    constructor
    · rintro ⟨⟩
      exact ⟨⟨reason, here⟩, rfl⟩
    · rintro ⟨_, rfl⟩
      rfl

end CopyWatch

/-- The locals of a monitoring session are up to date with its notes. -/
structure Tracked (g : CopyWatch) (l : CopyLocals) : Prop where
  entry : l.entryPriceSol = g.entryPriceSol
  boughtAt : l.boughtAt = some g.boughtAt
  guard : l.rugGuard = RugGuard.after g.ticks
  peak : l.peakPct = g.peak
  unsold : l.sold = false

/-- A session at the head of its loop. -/
structure CopyHead (cfg : Market.Config) (g : CopyWatch) (l : CopyLocals) : Prop where
  tracked : Tracked g l
  waits : g.TurnIs cfg l.alpha (some .wait)
  no_sell : ∀ reason, g.place ≠ .selling reason

/-- What a round of the loop leaves behind: a session that waits, one past its last sell, or one
whose price feed has ended. -/
def RoundLeft (cfg : Market.Config) (g : CopyWatch) (l : CopyLocals) : Option Unit → Prop
  | none => CopyHead cfg g l
  | some () => (l.sold = true ∧ g.place = .left) ∨
      (l.sold = false ∧ g.place = .woken (.tick none))

theorem idle_step {o : Op} {f : Reply o → CopyM α} {Q : CopyWatch → CopyLocals → α → Prop}
    (free : g.Free) (idle : o.isIdle = true)
    (rest : ∀ r, Async.wp (watchProtocol cfg dryRun) (f r) Q g l) :
    Async.wp (watchProtocol cfg dryRun) (Async.perform o >>= f) Q g l := by
  apply Async.wp_step
  · trivial
  · apply free.permits
    · cases o with
      | now site => cases site <;> first | rfl | cases idle
      | _ => first | rfl | cases idle
    · rintro p rfl
      cases idle
  · intro w r _
    have same : (watchProtocol cfg dryRun).next g w l o r = g := CopyWatch.next_idle idle
    rw [same]
    exact rest r

theorem watch_sale (reason : SellReason) {f : Except BoxError (Option Signature) → CopyM α}
    {Q : CopyWatch → CopyLocals → α → Prop}
    (rest : ∀ res, Async.wp (watchProtocol cfg dryRun) (f res) Q
      (g.goes (if reason.retried && !res.isOk then .waiting else .left)) l) :
    Async.wp (watchProtocol cfg dryRun) (traderSellAll cfg dryRun (copySale cfg l.alpha) >>= f) Q
      (g.goes (.selling reason)) l := by
  rw [traderSellAll]
  refine Async.wp_bind.mpr (Async.wp_step trivial (CopyWatch.permits_sale rfl) ?_)
  intro w answers _
  exact rest _

theorem watch_doSell {pct : ℚ} {reason : SellReason}
    {Q : CopyWatch → CopyLocals → Except BoxError Unit → Prop}
    (due : g.TurnIs cfg l.alpha (some (.sell reason))) (no_sell : ∀ r, g.place ≠ .selling r)
    (ended : ∀ res, (reason.retried = false ∨ res.isOk = true) → Q (g.goes .left) l res)
    (failed : ∀ e, reason.retried = true → Q (g.goes .waiting) l (.error e)) :
    Async.wp (watchProtocol cfg dryRun) (doSell cfg dryRun pct reason) Q g l := by
  rw [doSell]
  refine Async.wp_step trivial (CopyWatch.permits_of_turn due nofun no_sell) ?_
  intro w _ _
  rw [Async.wp_locals_bind]
  refine watch_sale (g := g) reason ?_
  intro res
  have free : (g.goes .left).Free := .inr rfl
  match res with
  | .ok (some sig) =>
      rw [Except.isOk, Except.toBool, Bool.not_true, Bool.and_false, if_neg Bool.false_ne_true]
      apply idle_step free rfl
      intro balance
      apply idle_step free rfl
      intro noticed
      exact ended (.ok ()) (.inr rfl)
  | .ok none =>
      rw [Except.isOk, Except.toBool, Bool.not_true, Bool.and_false, if_neg Bool.false_ne_true]
      exact ended (.ok ()) (.inr rfl)
  | .error e =>
      rw [Except.isOk, Except.toBool, Bool.not_false, Bool.and_true]
      split_ifs with retried
      · exact failed e retried
      · exact ended (.error e) (.inl (Bool.eq_false_iff.mpr retried))

theorem watch_sellAndLeave {pct : ℚ} {reason : SellReason}
    (due : g.TurnIs cfg l.alpha (some (.sell reason))) (no_sell : ∀ r, g.place ≠ .selling r)
    (once : reason.retried = false) :
    Async.wp (watchProtocol cfg dryRun) (sellAndLeave cfg dryRun pct reason) (RoundLeft cfg)
      g l := by
  rw [sellAndLeave]
  refine Async.wp_bind.mpr (watch_doSell due no_sell ?_ ?_)
  · exact fun _ _ => .inl ⟨rfl, rfl⟩
  · intro _ retried
    rw [once] at retried
    cases retried

theorem watch_onMirror {r : Received AlphaTrade} (tracked : Tracked g l) :
    Async.wp (watchProtocol cfg dryRun) (onMirror cfg dryRun r) (RoundLeft cfg)
      (g.goes (.woken (.mirror r))) l := by
  have tracked' : Tracked (g.goes (.woken (.mirror r))) l :=
    ⟨tracked.entry, tracked.boughtAt, tracked.guard, tracked.peak, tracked.unsold⟩
  rw [onMirror, Async.wp_locals_bind]
  cases r with
  | got sell =>
      dsimp only
      split_ifs with closes
      · exact watch_sellAndLeave (.inl ⟨alphaCloses_iff.mp closes, rfl⟩) nofun rfl
      · exact ⟨tracked', .inr ⟨fun here => closes (alphaCloses_iff.mpr here), rfl⟩, nofun⟩
  | lagged n => exact ⟨tracked', rfl, nofun⟩
  | closed =>
      exact ⟨⟨tracked.entry, tracked.boughtAt, tracked.guard, tracked.peak, tracked.unsold⟩, rfl,
        nofun⟩

@[simp] theorem CopyWatch.peak_goes (place : CopyPlace) : (g.goes place).peak = g.peak := rfl

@[simp] theorem CopyWatch.standing_goes (place : CopyPlace) (now : Instant) :
    (g.goes place).standing now = g.standing now := rfl

@[simp] theorem CopyWatch.peak_seen (tick : ℚ × ℚ) :
    (g.seen tick).peak = max g.peak (g.pnl tick.1) := by
  rw [peak, seen, List.map_append, List.foldl_append]
  rfl

@[simp] theorem CopyWatch.lastPct_seen (tick : ℚ × ℚ) : (g.seen tick).lastPct = g.pnl tick.1 := by
  rw [lastPct, seen, List.getLast?_concat]
  rfl

theorem watch_releaseCopySlot (free : g.Free) :
    Async.wp (watchProtocol cfg dryRun) releaseCopySlot (fun g _ _ => g.Free) g l := by
  rw [releaseCopySlot]
  apply idle_step free rfl
  intro _
  exact free

section Rugs

variable (narrow : cfg.rug.minSamples < 2 ^ 32)

include narrow

theorem watch_onCopyTick {sample : Sample} (tracked : Tracked g l) :
    Async.wp (watchProtocol cfg dryRun) (onCopyTick cfg dryRun sample.update) (RoundLeft cfg)
      ((g.seen (sample.update.priceSol, sample.update.poolSol)).goes
        (.woken (.tick (some sample)))) l := by
  obtain ⟨⟨priceSol, poolSol⟩, sampledAt⟩ := sample
  have guard : l.rugGuard.observe priceSol poolSol =
      RugGuard.after (g.ticks ++ [(priceSol, poolSol)]) := by
    rw [RugGuard.after_append, tracked.guard]
  have judged := RugGuard.isRugged_after_iff narrow g.ticks (priceSol, poolSol)
  rw [onCopyTick, Async.wp_assign_bind, Async.wp_locals_bind]
  dsimp only
  rw [guard]
  dsimp only at judged
  cases rugged : (RugGuard.after (g.ticks ++ [(priceSol, poolSol)])).isRugged cfg.rug priceSol
    poolSol with
  | some reason =>
      rw [rugged] at judged
      exact watch_sellAndLeave (.inl ⟨judged.mp rfl, reason, rfl⟩) nofun rfl
  | none =>
      have clear : ¬ cfg.rug.Due (g.ticks ++ [(priceSol, poolSol)]) := by
        rw [← judged, rugged]
        exact Bool.false_ne_true
      have pct : Copy.pnlPct l.entryPriceSol priceSol = g.pnl priceSol := by
        rw [tracked.entry, CopyWatch.pnl]
      have raised : (if l.peakPct < g.pnl priceSol then g.pnl priceSol else l.peakPct) =
          max g.peak (g.pnl priceSol) := by
        rw [tracked.peak]
        split_ifs with higher
        · exact (max_eq_right higher.le).symm
        · exact (max_eq_left (not_lt.mp higher)).symm
      rw [Async.wp_assign_bind, pct, raised]
      refine Async.wp_step trivial (CopyWatch.permits_of_turn (.inr ⟨clear, rfl⟩) nofun nofun) ?_
      intro w now _
      have aged (place : CopyPlace) : Tracked ((g.seen (priceSol, poolSol)).goes place) { l with
          lastPrice := some priceSol
          rugGuard := RugGuard.after (g.ticks ++ [(priceSol, poolSol)])
          peakPct := max g.peak (g.pnl priceSol) } := by
        refine ⟨tracked.entry, tracked.boughtAt, rfl, ?_, tracked.unsold⟩
        rw [CopyWatch.peak_goes, CopyWatch.peak_seen]
      have given (exit : Option ExitReason) :
          Copy.copyExit (max g.peak (g.pnl priceSol)) (g.pnl priceSol)
            (asSecs (durationSince now g.boughtAt)) cfg.copyTrade
            (parseTiers cfg.copyTrade.trailTiers) cfg.copyTrade.mirrorExit
            (Copy.effMaxHold cfg.copyTrade) = exit ↔ CopyExitGiven cfg.copyTrade
              (((g.seen (priceSol, poolSol)).goes (.aged now)).standing now) exit := by
        rw [← copyExit_iff, CopyWatch.standing_goes, CopyWatch.standing, CopyWatch.peak_seen,
          CopyWatch.lastPct_seen]
        rfl
      have age : l.boughtAt.getD now = g.boughtAt := by
        rw [tracked.boughtAt]
        rfl
      change Async.wp _ _ _ ((g.seen (priceSol, poolSol)).goes (.aged now)) _
      dsimp only
      rw [age]
      cases decided : Copy.copyExit (max g.peak (g.pnl priceSol)) (g.pnl priceSol)
        (asSecs (durationSince now g.boughtAt)) cfg.copyTrade (parseTiers cfg.copyTrade.trailTiers)
        cfg.copyTrade.mirrorExit (Copy.effMaxHold cfg.copyTrade) with
      | none => exact ⟨aged _, .inr ⟨(given none).mp decided, rfl⟩, nofun⟩
      | some exit =>
          refine Async.wp_bind.mpr (watch_doSell
            (.inl ⟨exit, (given (some exit)).mp decided, rfl⟩) nofun ?_ ?_)
          · intro res settled
            cases res with
            | ok _ => exact .inl ⟨rfl, rfl⟩
            | error e =>
                rcases settled with once | ok
                · cases once
                · cases ok
          · exact fun _ _ => ⟨aged _, rfl, nofun⟩

theorem watch_copyRound (head : CopyHead cfg g l) :
    Async.wp (watchProtocol cfg dryRun) (copyRound cfg dryRun) (RoundLeft cfg) g l := by
  obtain ⟨tracked, waits, no_sell⟩ := head
  have woken (e : CopyEvent) : Tracked (g.goes (.woken e)) l :=
    ⟨tracked.entry, tracked.boughtAt, tracked.guard, tracked.peak, tracked.unsold⟩
  rw [copyRound, Async.wp_locals_bind]
  refine Async.wp_step trivial (CopyWatch.permits_of_turn waits nofun no_sell) ?_
  intro w event _
  match event with
  | .deadline => exact watch_sellAndLeave rfl nofun rfl
  | .shutdown (.got ()) => exact watch_sellAndLeave rfl nofun rfl
  | .shutdown .closed => exact watch_sellAndLeave rfl nofun rfl
  | .shutdown (.lagged n) => exact ⟨woken _, rfl, nofun⟩
  | .mirror r => exact watch_onMirror tracked
  | .tick none => exact .inr ⟨tracked.unsold, rfl⟩
  | .tick (some sample) => exact watch_onCopyTick narrow tracked

theorem watch_monitorToExit {boughtAt : Instant} {price : ℚ} (apart : g.place = .apart)
    (fresh : l.rugGuard = {} ∧ l.peakPct = 0 ∧ l.sold = false) :
    Async.wp (watchProtocol cfg dryRun) (monitorToExit cfg dryRun boughtAt price)
      (fun g _ _ => g.Free) g l := by
  rw [monitorToExit, Async.wp_assign_bind]
  apply Async.wp_step
  · trivial
  · exact CopyWatch.Free.permits (.inl apart) rfl nofun
  intro w armed _
  obtain ⟨guard, peak, unsold⟩ := fresh
  refine Async.wp_bind.mpr (Async.wp_loop (CopyHead cfg) ⟨⟨rfl, rfl, guard, peak, unsold⟩, rfl,
    nofun⟩ (fun _ _ _ => trivial) ?_)
  intro g l head
  refine Async.wp_mono _ (watch_copyRound narrow head) ?_
  intro g' l' x ends
  match x with
  | none => exact ends
  | some () =>
      rw [Async.wp_locals_bind]
      rcases ends with ⟨sold, left⟩ | ⟨unsold, ended⟩
      · rw [if_pos sold]
        exact watch_releaseCopySlot (.inr left)
      · rw [if_neg (by rw [unsold]; exact Bool.false_ne_true)]
        have due : g'.TurnIs cfg l'.alpha (some (.sell .copyForcedExit)) := by
          rw [CopyWatch.TurnIs, ended]
        have no_sell (reason : SellReason) : g'.place ≠ .selling reason := by
          rw [ended]
          exact nofun
        refine Async.wp_bind.mpr (watch_doSell due no_sell ?_ ?_)
        · exact fun _ _ => watch_releaseCopySlot (.inr rfl)
        · exact fun _ retried => absurd retried Bool.false_ne_true

theorem watch_establish {mint : Pubkey} {buyRes : Except BoxError (Option Signature)}
    (fresh : l.rugGuard = {} ∧ l.peakPct = 0 ∧ l.sold = false) :
    Async.wp (watchProtocol cfg dryRun) (establish cfg dryRun mint buyRes)
      (fun g _ _ => g.Free) {} l := by
  have apart : ({} : CopyWatch).Free := .inl rfl
  rw [establish, Async.wp_locals_bind]
  apply idle_step apart rfl
  intro total
  cases buyRes with
  | error e => exact watch_releaseCopySlot apart
  | ok signature =>
    cases signature with
    | none =>
      apply idle_step apart rfl
      intro polled
      refine Async.wp_bind.mpr (Async.wp_mono _ (Q := fun g' l' _ => g' = {} ∧ l' = l) ?_ ?_)
      · apply Async.wp_loop fun g' l' => g' = {} ∧ l' = l
        · exact ⟨rfl, rfl⟩
        · exact fun _ _ _ => trivial
        · rintro g' l' ⟨rfl, rfl⟩
          apply idle_step apart rfl
          intro received
          cases received with
          | none => exact ⟨rfl, rfl⟩
          | some sample =>
              dsimp only
              split_ifs
              · exact ⟨rfl, rfl⟩
              · exact ⟨rfl, rfl⟩
      · rintro g' l' first ⟨rfl, rfl⟩
        cases first with
        | none => exact watch_releaseCopySlot apart
        | some price =>
            apply idle_step apart rfl
            intro boughtAt
            exact watch_monitorToExit narrow rfl fresh
    | some sig =>
      apply idle_step apart rfl
      intro boughtAt
      rw [Async.wp_assign_bind, fetchBalance]
      refine Async.wp_bind.mpr (idle_step apart rfl ?_)
      intro answers
      generalize Chain.fetchTokenBalance copyBalanceFetchAttempts answers = balance
      cases balance with
      | error e =>
          apply idle_step apart rfl
          intro _
          exact watch_releaseCopySlot apart
      | ok b =>
          change Async.wp _ (if b.uiAmount ≤ 0 then _ else _) _ _ _
          split_ifs
          · exact watch_releaseCopySlot apart
          · apply idle_step apart rfl
            intro _
            apply idle_step apart rfl
            intro polled
            exact watch_monitorToExit narrow rfl fresh

theorem watch_copyHandle (alpha : AlphaTrade) :
    Async.wp (watchProtocol cfg dryRun) (copyHandle cfg dryRun) (fun g _ _ => g.Free) {}
      { alpha := alpha } := by
  have apart : ({} : CopyWatch).Free := .inl rfl
  rw [copyHandle, Async.wp_locals_bind]
  dsimp only
  cases Pubkey.fromStr alpha.mint with
  | none => exact apart
  | some mint =>
      apply idle_step apart rfl
      intro now
      apply idle_step apart rfl
      intro allowed
      match allowed with
      | .error spent => exact apart
      | .ok () =>
          apply idle_step apart rfl
          intro slot
          rw [Async.wp_assign_bind]
          split_ifs
          · exact watch_releaseCopySlot apart
          · rw [traderBuy]
            refine Async.wp_bind.mpr (idle_step apart rfl ?_)
            intro answers
            exact watch_establish narrow ⟨rfl, rfl, rfl⟩

end Rugs

end Walk

section Runs

variable {cfg : Market.Config} {dryRun : Bool} {start : Instant} {admits : CopyAdmit}
  {tr : CopyTrace} {c : CopyConfig}

def copyWatch (cfg : Market.Config) (dryRun : Bool) (i : Nat) (tr : CopyTrace) : CopyWatch :=
  ghost (watchProtocol cfg dryRun) {} i tr

theorem copies_watch (narrow : cfg.rug.minSamples < 2 ^ 32)
    (run : CopyRun cfg dryRun start admits tr c) : ∀ (i : Nat) t, c.tasks[i]? = some t →
      Proc.wp (watchProtocol cfg dryRun) t (fun g _ _ => g.Free) (copyWatch cfg dryRun i tr) := by
  refine copy_protocol (watchProtocol cfg dryRun) (fun g _ _ => g.Free) {} ?_ ?_ run
  · exact watch_copyHandle narrow
  · intros
    trivial

/-- A copy session takes the turn that is due, whatever it is woken by: it sells for the reasons of
its exits in their order and for no other, reads the age of its position on every other tick, and
waits again in all other cases. It returns out of its loop only past a sell. -/
theorem copy_takes_turns (cfg : Market.Config) (narrow : cfg.rug.minSamples < 2 ^ 32)
    (dryRun : Bool) (start : Instant) (tr : CopyTrace) (c : CopyConfig)
    (run : CopyRun cfg dryRun start always tr c) :
    (∀ pre w i l o r post, tr = pre ++ (w, .perform i l o r) :: post →
      (copyWatch cfg dryRun i pre).Permits cfg l.alpha o) ∧
    ∀ (i : Nat) t, c.tasks[i]? = some t → t.finished = true → (copyWatch cfg dryRun i tr).Free := by
  constructor
  · intro pre w i l o r post split
    obtain ⟨c₁, c₂, before, _, _, moved⟩ := run.upto pre w _ post split
    cases moved with
    | perform pending granted => exact (copies_watch narrow before i _ pending).2.1
  · intro i t here finished
    obtain ⟨_, free⟩ := Proc.returned_of_finished (copies_watch narrow run i t here) finished
    exact free

end Runs

theorem copy_takes_turns_failed_sell : ∃ tr,
    (copyWatch eager false 0 tr).place = .left ∧
    (copyWatch eager false 0 tr).ticks = [(1 / 20, 10), (1 / 100, 10)] ∧
    ∀ pre w i l o r post, tr = pre ++ (w, .perform i l o r) :: post →
      (copyWatch eager false i pre).Permits eager l.alpha o := by
  obtain ⟨tr, c, run, reached⟩ := System.script_reaches (copyMode eager false)
    (copyStart eager 0)
    (copyEntry 0 "A" ++ go readyNet 0 1 ++ [.env (.feed 0 .discovered)] ++ price 0 (1 / 20) 10 ++
      go readyNet 0 3 ++ price 0 (1 / 100) 10 ++ go deafNet 0 5 ++ go readyNet 0 4)
    (fun tr _ => (copyWatch eager false 0 tr).place = .left ∧
      (copyWatch eager false 0 tr).ticks = [(1 / 20, 10), (1 / 100, 10)]) (by decide +kernel)
  obtain ⟨left, ticks⟩ := of_decide_eq_true reached
  exact ⟨tr, left, ticks, (copy_takes_turns eager (by decide) false 0 tr c run).1⟩

end HadesPsTrader.Tasks
