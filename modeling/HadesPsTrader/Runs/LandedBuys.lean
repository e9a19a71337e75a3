/- Module: HadesPsTrader/Runs/LandedBuys
   source: src/session.rs, src/copy_session.rs
   digest: When a run of a buying task accounts for every transaction of it that lands. -/

import HadesPsTrader.Chain.BuyLandings
import HadesPsTrader.Tasks.World

set_option autoImplicit false
set_option relaxedAutoImplicit false

namespace HadesPsTrader.Tasks

open HadesPsTrader.Market HadesPsTrader.Chain HadesPsTrader.Interaction

/-! ### What a run did -/

section Doings

variable (cfg : Market.Config) (dryRun : Bool)

def buyWire : Sigma Reply → List Wire
  | ⟨.buy p, answers⟩ => (Chain.buy (jitoSettings cfg) p dryRun answers).wire
  | _ => []

def buyFailed : Sigma Reply → Bool
  | ⟨.buy p, answers⟩ => !(Chain.buy (jitoSettings cfg) p dryRun answers).result.isOk
  | _ => false

def recordedAmount : Sigma Reply → List ℚ
  | ⟨.spendRecord amountSol, _⟩ => [amountSol]
  | _ => []

def orphanAlert : Sigma Reply → Bool
  | ⟨.notify (.orphan _ _ _ _ _ _), _⟩ => true
  | _ => false

def landedBuys (done : List (Sigma Reply)) : List Signature :=
  landed (done.flatMap (buyWire cfg dryRun))

/-- No untracked landed buy: each is recorded as spent where that is `due`, the run ends with the
position `tracked` or an orphan alert, and none lands when the buy is reported as failed. -/
structure LandedTracked (amountSol : ℚ) (due tracked : Prop) (done : List (Sigma Reply)) :
    Prop where
  recorded : due → (landedBuys cfg dryRun done).length ≤
    (done.flatMap recordedAmount).count amountSol
  known : landedBuys cfg dryRun done ≠ [] → tracked ∨ done.any orphanAlert
  silent : done.any (buyFailed cfg dryRun) → landedBuys cfg dryRun done = []

variable {cfg dryRun} {amountSol : ℚ} {due tracked : Prop} {done : List (Sigma Reply)}

theorem LandedTracked.of_idle (idle : done.flatMap (buyWire cfg dryRun) = []) :
    LandedTracked cfg dryRun amountSol due tracked done := by
  have none_landed : landedBuys cfg dryRun done = [] := by rw [landedBuys, idle, landed_nil]
  constructor
  · simp [none_landed]
  · simp [none_landed]
  · simp [none_landed]

/-- What a run did that made one buy call, answered by `answers`. -/
structure BoughtOnce (cfg : Market.Config) (dryRun : Bool) (p : BuyParams)
    (answers : Nat → SubmitAnswers) (amountSol : ℚ) (due tracked : Prop)
    (done : List (Sigma Reply)) : Prop where
  wire : done.flatMap (buyWire cfg dryRun) = (Chain.buy (jitoSettings cfg) p dryRun answers).wire
  failed : done.any (buyFailed cfg dryRun) =
    !(Chain.buy (jitoSettings cfg) p dryRun answers).result.isOk
  recorded : due → (Chain.buy (jitoSettings cfg) p dryRun answers).result.isOk →
    (done.flatMap recordedAmount).count amountSol = 1
  known : tracked ∨ done.any orphanAlert ↔
    ∃ sig, (Chain.buy (jitoSettings cfg) p dryRun answers).result = .ok (some sig)

/-- The landings of a live buy are accounted for when there are none, or when an attempt confirms
and no more than the one recorded buy lands. -/
def LandingsKnown (cfg : Market.Config) (answers : Nat → SubmitAnswers) (due : Prop) : Prop :=
  buyLandings (jitoSettings cfg) answers = 0 ∨
    ((∃ n, Reached (jitoSettings cfg) answers n ∧ (answers n).confirms (jitoSettings cfg)) ∧
      (due → buyLandings (jitoSettings cfg) answers ≤ 1))

theorem BoughtOnce.of_rest {p : BuyParams} {answers : Nat → SubmitAnswers}
    (wire : done.flatMap (buyWire cfg dryRun) = [])
    (failed : done.any (buyFailed cfg dryRun) = false)
    (recorded : due → (Chain.buy (jitoSettings cfg) p dryRun answers).result.isOk →
      done.flatMap recordedAmount = [amountSol])
    (known : tracked ∨ done.any orphanAlert ↔
      ∃ sig, (Chain.buy (jitoSettings cfg) p dryRun answers).result = .ok (some sig)) :
    BoughtOnce cfg dryRun p answers amountSol due tracked (⟨.buy p, answers⟩ :: done) where
  wire := by rw [List.flatMap_cons, wire, List.append_nil, buyWire]
  failed := by rw [List.any_cons, failed, Bool.or_false, buyFailed]
  recorded isDue isOk := by
    rw [List.flatMap_cons, recorded isDue isOk]
    simp [recordedAmount]
  known := known

/-- The steps before a buy: no buy, no record, no alert. -/
structure Quiet (cfg : Market.Config) (dryRun : Bool) (done : List (Sigma Reply)) : Prop where
  wire : done.flatMap (buyWire cfg dryRun) = []
  failed : done.any (buyFailed cfg dryRun) = false
  recorded : done.flatMap recordedAmount = []
  alerted : done.any orphanAlert = false

theorem BoughtOnce.prepend {p : BuyParams} {answers : Nat → SubmitAnswers}
    {before : List (Sigma Reply)} (quiet : Quiet cfg dryRun before)
    (bought : BoughtOnce cfg dryRun p answers amountSol due tracked done) :
    BoughtOnce cfg dryRun p answers amountSol due tracked (before ++ done) where
  wire := by rw [List.flatMap_append, quiet.wire, List.nil_append, bought.wire]
  failed := by rw [List.any_append, quiet.failed, Bool.false_or, bought.failed]
  recorded := by rw [List.flatMap_append, quiet.recorded, List.nil_append]; exact bought.recorded
  known := by rw [List.any_append, quiet.alerted, Bool.false_or]; exact bought.known

theorem BoughtOnce.landedTracked_iff {p : BuyParams} {answers : Nat → SubmitAnswers}
    (bought : BoughtOnce cfg false p answers amountSol due tracked done) :
    LandedTracked cfg false amountSol due tracked done ↔ LandingsKnown cfg answers due := by
  have count : (landedBuys cfg false done).length = buyLandings (jitoSettings cfg) answers := by
    rw [landedBuys, bought.wire, landed_buy]
  have isOk := buy_isOk (jitoSettings cfg) p answers
  have signed : (∃ sig, (Chain.buy (jitoSettings cfg) p false answers).result = .ok (some sig)) ↔
      (Chain.buy (jitoSettings cfg) p false answers).result.isOk := by
    have := buy_signed (jitoSettings cfg) p answers
    rcases result : (Chain.buy (jitoSettings cfg) p false answers).result with e | _ | sig
    · simp [Except.isOk, Except.toBool]
    · exact absurd result this
    · simp [Except.isOk, Except.toBool]
  have known := bought.known.trans (signed.trans isOk)
  rw [LandingsKnown, ← count]
  constructor
  · intro accounted
    rcases Nat.eq_zero_or_pos (landedBuys cfg false done).length with zero | some_landed
    · exact .inl zero
    · have confirms := known.mp (accounted.known (List.length_pos_iff.mp some_landed))
      refine .inr ⟨confirms, ?_⟩
      intro isDue
      exact bought.recorded isDue (isOk.mpr confirms) ▸ accounted.recorded isDue
  · rintro (zero | ⟨confirms, single⟩)
    · have none_landed := List.length_eq_zero_iff.mp zero
      constructor
      · simp [none_landed]
      · simp [none_landed]
      · simp [none_landed]
    · constructor
      · intro isDue
        exact (bought.recorded isDue (isOk.mpr confirms)).symm ▸ single isDue
      · exact fun _ => known.mpr confirms
      · intro failed
        rw [bought.failed, isOk.mpr confirms] at failed
        cases failed

end Doings

/-! ### `try_buy` -/

section TryBuy

variable (cfg : Market.Config) (dryRun : Bool) (answer : (o : Op) → Reply o)

def positionTracked : Proc.Rest SessionLocals (Option Position) → Prop
  | .returned _ position => position.isSome
  | .looping _ => False

def sessionBuy (l : SessionLocals) : BuyParams where
  mint := l.event.mint
  symbol := l.event.symbol
  amountSol := cfg.amountSol
  slippagePct := cfg.trading.slippage
  priorityFeeSol := cfg.trading.priorityFeeSol
  maxRetries := cfg.trading.buyTxRetries

theorem trackPosition_known (mint : Pubkey) (trigger : EntryTrigger) (slot : Int)
    (sig : Signature) (l : SessionLocals) :
    let run := (trackPosition cfg mint trigger slot sig).play answer l
    run.1.flatMap (buyWire cfg dryRun) = [] ∧ run.1.any (buyFailed cfg dryRun) = false ∧
      run.1.flatMap recordedAmount = [] ∧
      (positionTracked run.2 ∨ run.1.any orphanAlert) := by
  simp only [trackPosition, instantNow, fetchBalance, notify, releaseSlot, fetchSub,
    Async.play_bind, Async.play_locals, Async.play_perform, Async.play_assign, Async.play_pure]
  cases balance : fetchTokenBalance balanceFetchAttempts (answer (.fetchTokenBalance mint)) with
  | error e => simp [buyWire, buyFailed, recordedAmount, orphanAlert]
  | ok b =>
      have positive : ¬ b.uiAmount ≤ 0 :=
        not_le.mpr (TokenBalance.uiAmount_pos (fetchTokenBalance_pos balance))
      simp [positive, buyWire, buyFailed, recordedAmount, orphanAlert, positionTracked]

/-- The steps of `recordDipBuy`. -/
def recordSteps (trigger : EntryTrigger) : List (Sigma Reply) :=
  if trigger = .dipBuy then [⟨.spendRecord cfg.amountSol, answer (.spendRecord cfg.amountSol)⟩]
  else []

theorem recordDipBuy_play (trigger : EntryTrigger) (l : SessionLocals) :
    (recordDipBuy cfg trigger).play answer l =
      (recordSteps cfg answer trigger, .returned l ()) := by
  unfold recordDipBuy recordSteps
  split_ifs <;> simp [spendRecord]

theorem recordSteps_only (trigger : EntryTrigger) :
    (recordSteps cfg answer trigger).flatMap (buyWire cfg dryRun) = [] ∧
      (recordSteps cfg answer trigger).any (buyFailed cfg dryRun) = false ∧
      (recordSteps cfg answer trigger).any orphanAlert = false ∧
      (trigger = .dipBuy → (recordSteps cfg answer trigger).flatMap recordedAmount =
        [cfg.amountSol]) := by
  unfold recordSteps
  split_ifs with dip <;> simp [dip, buyWire, buyFailed, orphanAlert, recordedAmount]

theorem buyInSlot_boughtOnce (mint : Pubkey) (trigger : EntryTrigger) (l : SessionLocals)
    (room : answer .fetchAdd < cfg.trading.maxPositions) :
    BoughtOnce cfg dryRun (sessionBuy cfg l) (answer (.buy (sessionBuy cfg l))) cfg.amountSol
      (trigger = .dipBuy) (positionTracked ((buyInSlot cfg dryRun mint trigger).play answer l).2)
      ((buyInSlot cfg dryRun mint trigger).play answer l).1 := by
  have open_slot : ¬ (cfg.trading.maxPositions : Int) ≤ answer .fetchAdd := not_le.mpr room
  obtain ⟨recordWire, recordFailed, recordAlert, recordAmount⟩ :=
    recordSteps_only cfg dryRun answer trigger
  have reserved : Quiet cfg dryRun [⟨.fetchAdd, answer .fetchAdd⟩] := by
    constructor <;> rfl
  simp only [buyInSlot, fetchAdd, traderBuy, Async.play_bind, Async.play_locals,
    Async.play_perform, Async.play_assign, Async.play_pure, open_slot, if_false,
    List.nil_append, List.append_nil]
  refine BoughtOnce.prepend reserved ?_
  rw [← sessionBuy, List.singleton_append]
  rcases result : (Chain.buy (jitoSettings cfg) (sessionBuy cfg l) dryRun
    (answer (.buy (sessionBuy cfg l)))).result with e | _ | sig
  · simp only [releaseSlot, fetchSub, Async.play_bind, Async.play_perform, Async.play_pure]
    refine BoughtOnce.of_rest (by rfl) (by rfl) (fun _ isOk => ?_) ?_
    · rw [result] at isOk
      cases isOk
    · simp [result, positionTracked, orphanAlert]
  · simp only [recordDipBuy_play, releaseSlot, fetchSub, Async.play_bind, Async.play_perform,
      Async.play_pure]
    refine .of_rest ?_ ?_ (fun dip _ => ?_) ?_
    · simp [recordWire, buyWire]
    · simp [recordFailed, buyFailed]
    · simp [recordAmount dip, recordedAmount]
    · simp [recordAlert, result, positionTracked, orphanAlert]
  · simp only [recordDipBuy_play, Async.play_bind]
    generalize ({ l with buying := _ } : SessionLocals) = entered
    obtain ⟨wire, failed, amounts, known⟩ :=
      trackPosition_known cfg dryRun answer mint trigger (answer .fetchAdd) sig entered
    refine .of_rest ?_ ?_ (fun dip _ => ?_) ?_
    · simp [recordWire, wire]
    · simp [recordFailed, failed]
    · simp [recordAmount dip, amounts]
    · simp only [List.any_append, recordAlert, Bool.false_or, known, result]
      simp

/-- The cap check and the slot reservation let the buy of a session through. -/
def sessionBuys (trigger : EntryTrigger) : Prop :=
  (trigger = .dipBuy → (answer (.spendCheck (answer (.now .spendCheck)) cfg.amountSol)).isOk) ∧
    answer .fetchAdd < cfg.trading.maxPositions

theorem tryBuy_allowed (mint : Pubkey) (trigger : EntryTrigger) (l : SessionLocals)
    (allowed : trigger = .dipBuy →
      (answer (.spendCheck (answer (.now .spendCheck)) cfg.amountSol)).isOk) :
    ∃ before, Quiet cfg dryRun before ∧ (tryBuy cfg dryRun mint trigger).play answer l =
      (before ++ ((buyInSlot cfg dryRun mint trigger).play answer
          { l with buying := some { trigger := trigger } }).1,
        ((buyInSlot cfg dryRun mint trigger).play answer
          { l with buying := some { trigger := trigger } }).2) := by
  simp only [tryBuy, enter, instantNow, spendCheck, Async.play_bind, Async.play_perform,
    Async.play_assign]
  by_cases dip : trigger = .dipBuy
  · have within := allowed dip
    cases check : answer (.spendCheck (answer (.now .spendCheck)) cfg.amountSol) with
    | error e => simp [check, Except.isOk, Except.toBool] at within
    | ok u =>
      refine ⟨[⟨.call (.tryBuy trigger), answer (.call (.tryBuy trigger))⟩,
        ⟨.now .spendCheck, answer (.now .spendCheck)⟩,
        ⟨.spendCheck (answer (.now .spendCheck)) cfg.amountSol, .ok ()⟩], ?_, ?_⟩
      · constructor <;> simp [buyWire, buyFailed, recordedAmount, orphanAlert]
      · simp [dip, check]
  · refine ⟨[⟨.call (.tryBuy trigger), answer (.call (.tryBuy trigger))⟩], ?_, ?_⟩
    · constructor <;> simp [buyWire, buyFailed, recordedAmount, orphanAlert]
    · simp [dip]

theorem tryBuy_boughtOnce (mint : Pubkey) (trigger : EntryTrigger) (l : SessionLocals)
    (buys : sessionBuys cfg answer trigger) :
    let run := (tryBuy cfg dryRun mint trigger).play answer l
    BoughtOnce cfg dryRun (sessionBuy cfg l) (answer (.buy (sessionBuy cfg l))) cfg.amountSol
      (trigger = .dipBuy) (positionTracked run.2) run.1 := by
  obtain ⟨before, quiet, run⟩ := tryBuy_allowed cfg dryRun answer mint trigger l buys.1
  rw [run]
  exact (buyInSlot_boughtOnce cfg dryRun answer mint trigger _ buys.2).prepend quiet

theorem tryBuy_idle (mint : Pubkey) (trigger : EntryTrigger) (l : SessionLocals)
    (blocked : ¬ sessionBuys cfg answer trigger) :
    ((tryBuy cfg dryRun mint trigger).play answer l).1.flatMap (buyWire cfg dryRun) = [] := by
  by_cases allowed : trigger = .dipBuy →
      (answer (.spendCheck (answer (.now .spendCheck)) cfg.amountSol)).isOk
  · have full : (cfg.trading.maxPositions : Int) ≤ answer .fetchAdd := by
      by_contra room
      exact blocked ⟨allowed, not_le.mp room⟩
    obtain ⟨before, quiet, run⟩ := tryBuy_allowed cfg dryRun answer mint trigger l allowed
    rw [run, List.flatMap_append, quiet.wire]
    simp [buyInSlot, fetchAdd, releaseSlot, fetchSub, full, buyWire]
  · obtain ⟨dip, denied⟩ := Classical.not_imp.mp allowed
    cases check : answer (.spendCheck (answer (.now .spendCheck)) cfg.amountSol) with
    | ok u => simp [check, Except.isOk, Except.toBool] at denied
    | error e =>
      simp [tryBuy, enter, instantNow, spendCheck, dip, check, buyWire]

/-- Every landed buy of a `try_buy` run is accounted for exactly when its landings are known. -/
theorem tryBuy_landedTracked_iff (mint : Pubkey) (trigger : EntryTrigger) (l : SessionLocals) :
    let run := (tryBuy cfg dryRun mint trigger).play answer l
    LandedTracked cfg dryRun cfg.amountSol (trigger = .dipBuy) (positionTracked run.2) run.1 ↔
      (dryRun = false → sessionBuys cfg answer trigger →
        LandingsKnown cfg (answer (.buy (sessionBuy cfg l))) (trigger = .dipBuy)) := by
  intro run
  by_cases buys : sessionBuys cfg answer trigger
  · have bought := tryBuy_boughtOnce cfg dryRun answer mint trigger l buys
    cases dryRun with
    | false => exact bought.landedTracked_iff.trans ⟨fun known _ _ => known, fun h => h rfl buys⟩
    | true => exact iff_of_true (.of_idle (bought.wire.trans (by rw [buy_dry]))) nofun
  · exact iff_of_true (.of_idle (tryBuy_idle cfg dryRun answer mint trigger l buys))
      fun _ h => absurd h buys

end TryBuy

/-! ### `copy_handle` -/

section CopyHandle

variable (cfg : Market.Config) (answer : (o : Op) → Reply o)

/-- The run entered the monitor loop, the only loop of a live copy session. -/
def monitoring : Proc.Rest CopyLocals Unit → Prop
  | .returned _ _ => False
  | .looping _ => True

def copyBuy (l : CopyLocals) : BuyParams where
  mint := l.alpha.mint
  symbol := l.alpha.symbol
  amountSol := cfg.copyTrade.tradeAmountSol
  slippagePct := cfg.trading.slippage
  priorityFeeSol := cfg.trading.priorityFeeSol
  maxRetries := cfg.trading.buyTxRetries

/-- The mint parses, and the cap check and the slot reservation let the buy through. -/
def copyBuys (l : CopyLocals) : Prop :=
  (Pubkey.fromStr l.alpha.mint).isSome ∧
    (answer (.spendCheck (answer (.now .spendCheck)) cfg.copyTrade.tradeAmountSol)).isOk ∧
    answer .fetchAdd < cfg.copyTrade.maxPositions

theorem establish_known (mint : Pubkey) (buyRes : Except BoxError (Option Signature))
    (live : buyRes ≠ .ok none) (l : CopyLocals) :
    let run := (establish cfg false mint buyRes).play answer l
    run.1.flatMap (buyWire cfg false) = [] ∧ run.1.any (buyFailed cfg false) = false ∧
      run.1.flatMap recordedAmount = [cfg.copyTrade.tradeAmountSol] ∧
      (monitoring run.2 ∨ run.1.any orphanAlert ↔ ∃ sig, buyRes = .ok (some sig)) := by
  simp only [establish, spendRecord, Async.play_bind, Async.play_locals, Async.play_perform]
  rcases buyRes with e | _ | sig
  · simp [releaseCopySlot, fetchSub, buyWire, buyFailed, recordedAmount, orphanAlert, monitoring]
  · exact absurd rfl live
  · simp only [instantNow, fetchBalance, notify, releaseCopySlot, fetchSub, spawnPricePoll,
      monitorToExit, sleepUntil, Async.play_bind, Async.play_perform, Async.play_assign,
      Async.play_pure]
    cases balance : fetchTokenBalance copyBalanceFetchAttempts
        (answer (.fetchTokenBalance mint)) with
    | error e => simp [buyWire, buyFailed, recordedAmount, orphanAlert, monitoring]
    | ok b =>
        have positive : ¬ b.uiAmount ≤ 0 :=
          not_le.mpr (TokenBalance.uiAmount_pos (fetchTokenBalance_pos balance))
        simp [positive, buyWire, buyFailed, recordedAmount, orphanAlert, monitoring]

theorem copyHandle_boughtOnce (l : CopyLocals) (buys : copyBuys cfg answer l) :
    let run := (copyHandle cfg false).play answer l
    BoughtOnce cfg false (copyBuy cfg l) (answer (.buy (copyBuy cfg l)))
      cfg.copyTrade.tradeAmountSol True (monitoring run.2) run.1 := by
  obtain ⟨parsed, within, room⟩ := buys
  obtain ⟨mint, parsed⟩ := Option.isSome_iff_exists.mp parsed
  have open_slot : ¬ (cfg.copyTrade.maxPositions : Int) ≤ answer .fetchAdd := not_le.mpr room
  cases check : answer (.spendCheck (answer (.now .spendCheck)) cfg.copyTrade.tradeAmountSol) with
  | error e => simp [check, Except.isOk, Except.toBool] at within
  | ok u =>
      simp only [copyHandle, instantNow, spendCheck, fetchAdd, traderBuy, parsed, check,
        Async.play_bind, Async.play_locals, Async.play_perform, Async.play_assign,
        Async.play_pure, open_slot, if_false, List.nil_append, List.append_nil]
      rw [← copyBuy]
      generalize ({ l with slot := _ } : CopyLocals) = entered
      obtain ⟨wire, failed, amounts, known⟩ := establish_known cfg answer mint _
        (buy_signed (jitoSettings cfg) (copyBuy cfg l) (answer (.buy (copyBuy cfg l)))) entered
      refine .prepend (by constructor <;> rfl) (.prepend (by constructor <;> rfl)
        (.prepend (by constructor <;> rfl) ?_))
      exact .of_rest wire failed (fun _ _ => amounts) known

theorem copyHandle_idle (l : CopyLocals) (blocked : ¬ copyBuys cfg answer l) :
    ((copyHandle cfg false).play answer l).1.flatMap (buyWire cfg false) = [] := by
  cases parsed : Pubkey.fromStr l.alpha.mint with
  | none => simp [copyHandle, parsed]
  | some mint =>
      cases check : answer (.spendCheck (answer (.now .spendCheck))
          cfg.copyTrade.tradeAmountSol) with
      | error e => simp [copyHandle, instantNow, spendCheck, parsed, check, buyWire]
      | ok u =>
          have full : (cfg.copyTrade.maxPositions : Int) ≤ answer .fetchAdd := by
            by_contra room
            exact blocked ⟨by rw [parsed]; rfl, by rw [check]; rfl, not_le.mp room⟩
          simp [copyHandle, instantNow, spendCheck, fetchAdd, releaseCopySlot, fetchSub, parsed,
            check, full, buyWire]

/-- Every landed buy of a live copy session is accounted for exactly when its landings are
known. -/
theorem copyHandle_landedTracked_iff (l : CopyLocals) :
    let run := (copyHandle cfg false).play answer l
    LandedTracked cfg false cfg.copyTrade.tradeAmountSol True (monitoring run.2) run.1 ↔
      (copyBuys cfg answer l → LandingsKnown cfg (answer (.buy (copyBuy cfg l))) True) := by
  intro run
  by_cases buys : copyBuys cfg answer l
  · exact (copyHandle_boughtOnce cfg answer l buys).landedTracked_iff.trans
      ⟨fun known _ => known, fun h => h buys⟩
  · exact iff_of_true (.of_idle (copyHandle_idle cfg answer l buys)) fun h => absurd h buys

end CopyHandle

/-! ### Both tasks -/

/-- A live buy keeps no landed transaction from the bot exactly when its landings are known. An
answer is given once for each operation: no operation is asked for twice before the run ends or
stands at the monitor loop. -/
theorem landed_buys_tracked_iff (cfg : Market.Config) (answer : (o : Op) → Reply o) :
    (∀ (dryRun : Bool) (mint : Pubkey) (trigger : EntryTrigger) (l : SessionLocals),
      let run := (tryBuy cfg dryRun mint trigger).play answer l
      LandedTracked cfg dryRun cfg.amountSol (trigger = .dipBuy) (positionTracked run.2) run.1 ↔
        (dryRun = false → sessionBuys cfg answer trigger →
          LandingsKnown cfg (answer (.buy (sessionBuy cfg l))) (trigger = .dipBuy))) ∧
    ∀ l : CopyLocals,
      let run := (copyHandle cfg false).play answer l
      LandedTracked cfg false cfg.copyTrade.tradeAmountSol True (monitoring run.2) run.1 ↔
        (copyBuys cfg answer l → LandingsKnown cfg (answer (.buy (copyBuy cfg l))) True) :=
  ⟨fun dryRun => tryBuy_landedTracked_iff cfg dryRun answer,
    copyHandle_landedTracked_iff cfg answer⟩

/-- Every buy is taken and lands, and the node never reports a status of it. -/
def unreported : (o : Op) → Reply o
  | .call _ => ()
  | .now _ => 0
  | .fetchAdd => 0
  | .fetchSub => 1
  | .spendCheck _ _ => .ok ()
  | .spendRecord amountSol => amountSol
  | .buy _ => fun _ => lateLanding
  | .sellAll _ => fun _ => lateLanding
  | .fetchTokenBalance _ => readyNet.balance
  | .fetchSolBalance => .ok 0
  | .notify _ => ()
  | .fetchTokenMetadata _ => .error ""
  | .runFilters _ => true
  | .spawnPricePoll _ => ()
  | .sleepUntil _ => ()
  | .select => .deadline
  | .copySelect _ => .deadline
  | .recv => none

/-- The confirmations time out, the buy counts as failed, and its transactions land. -/
theorem timed_out_buys_land_untracked :
    (let run := (tryBuy eager false ⟨0⟩ .dipBuy).play unreported
      (.start eager ⟨someMint, none, none⟩ 0)
    ¬ LandedTracked eager false eager.amountSol (EntryTrigger.dipBuy = .dipBuy)
      (positionTracked run.2) run.1) ∧
    (let run := (copyHandle eager false).play unreported
      { alpha := ⟨someMint, "alpha", "buy", true, none, none⟩ }
    ¬ LandedTracked eager false eager.copyTrade.tradeAmountSol True (monitoring run.2) run.1) := by
  constructor
  · intro run accounted
    exact absurd (accounted.silent (by decide +kernel)) (by decide +kernel)
  · intro run accounted
    exact absurd (accounted.silent (by decide +kernel)) (by decide +kernel)

end HadesPsTrader.Tasks
