/- Module: HadesPsTrader/Runs/EntryPieces
   source: src/session.rs, src/copy_session.rs
   digest: The entry price of a position follows from the notes of its entry, wherever a session
   stands. -/

import HadesPsTrader.Runs.EntryNotes
import HadesPsTrader.Runs.SessionPieces
import HadesPsTrader.Runs.SessionWalk
import HadesPsTrader.Tasks.World

set_option autoImplicit false
set_option relaxedAutoImplicit false

namespace HadesPsTrader.Tasks

open HadesPsTrader.Market HadesPsTrader.Chain HadesPsTrader.Interaction

/-- What a session of either kind notes of its entries, where the balance is read in so many
attempts. -/
def notesProtocol {L : Type} (attempts : Nat) (coherent : EntryNotes → L → Prop) :
    Protocol EntryNotes World L Op Reply where
  coherent g l := coherent g l
  guard _ _ _ := True
  valid _ _ _ _ _ := True
  next g _ _ o r := g.next attempts o r

section Notes

variable {L α : Type} {attempts : Nat} {coherent : EntryNotes → L → Prop} {g : EntryNotes} {l : L}
  {Q : EntryNotes → L → α → Prop}

theorem notes_step {o : Op} {f : Reply o → TaskM L α} (here : coherent g l)
    (rest : ∀ r, Async.wp (notesProtocol attempts coherent) (f r) Q (g.next attempts o r) l) :
    Async.wp (notesProtocol attempts coherent) (Async.perform o >>= f) Q g l :=
  Async.wp_step here trivial fun _ r _ => rest r

theorem notes_fetchBalance {mint : Pubkey} {f : Except BalanceError TokenBalance → TaskM L α}
    (here : coherent g l)
    (missed : ∀ e, Async.wp (notesProtocol attempts coherent) (f (.error e)) Q g l)
    (read : ∀ b, Async.wp (notesProtocol attempts coherent) (f (.ok b)) Q
      { g with read := b.uiAmount } l) :
    Async.wp (notesProtocol attempts coherent) (fetchBalance attempts mint >>= f) Q g l := by
  rw [fetchBalance]
  refine Async.wp_bind.mpr (notes_step here ?_)
  intro answers
  have answered : Async.wp (notesProtocol attempts coherent)
      (f (fetchTokenBalance attempts answers)) Q
      (g.next attempts (.fetchTokenBalance mint) answers) l := by
    cases balance : fetchTokenBalance attempts answers with
    | error e =>
        rw [EntryNotes.next_fetch_error balance]
        exact missed e
    | ok b =>
        rw [EntryNotes.next_fetch_ok balance]
        exact read b
  exact answered

end Notes

/-! ### Graduation sessions -/

/-- The open position, if any, is priced by the notes. -/
def EntryNotes.Covers (g : EntryNotes) (l : SessionLocals) : Prop :=
  ∀ pos, l.position = some pos → g.Prices pos.entryPriceSol

theorem EntryNotes.covers_none {g : EntryNotes} {l : SessionLocals} (blank : l.position = none) :
    g.Covers l := by
  intro pos position
  rw [blank] at position
  cases position

abbrev entryProtocol : Protocol EntryNotes World SessionLocals Op Reply :=
  notesProtocol balanceFetchAttempts EntryNotes.Covers

section Session

variable {cfg : Market.Config} {dryRun : Bool} {α : Type} {g : EntryNotes} {l : SessionLocals}

abbrev Unnoted (g : EntryNotes) (m : SessionM α) : Prop :=
  Async.Steady World (fun o => o.isNoted = false) g.Covers m

theorem Unnoted.coheres {m : SessionM α} (calm : ∀ g, Unnoted g m) :
    Async.Coheres entryProtocol m := by
  apply Async.Steady.coheres calm
  · exact fun _ _ _ _ _ => trivial
  · exact fun _ _ _ _ _ idle => EntryNotes.next_idle idle

theorem unnoted_trySell {pos : Position} {pct : ℚ} {reason : SellReason} :
    Unnoted g (trySell cfg dryRun pos pct reason) :=
  trySell_steady rfl (fun _ => rfl) rfl fun _ => rfl

theorem unnoted_take : Unnoted g (Async.assign SessionLocals.take) := by
  apply Async.Steady.assign
  intro l _
  exact EntryNotes.covers_none rfl

theorem unnoted_sellForGood {pct : Position → ℚ} {reason : SellReason} :
    Unnoted g (sellForGood cfg dryRun pct reason) := by
  apply Async.Steady.bind
  · exact .locals
  intro l
  cases l.position with
  | none => exact .pure _
  | some pos =>
      apply Async.Steady.bind
      · exact unnoted_take
      intro _
      apply Async.Steady.bind
      · exact unnoted_trySell
      intro _
      apply Async.Steady.bind
      · exact .perform rfl
      intro _
      apply Async.Steady.assign
      intro l here
      exact here

theorem unnoted_exitSale {pos : Position} {pct : ℚ} {reason : ExitReason}
    (priced : g.Prices pos.entryPriceSol) : Unnoted g (do
      Async.assign SessionLocals.take
      let res ← trySell cfg dryRun pos pct (.exit reason)
      match res with
      | .ok () => do
          let _ ← fetchSub
          Async.assign SessionLocals.settle
          let soldAt ← instantNow .soldAt
          Async.assign fun l => { l with lastSellAt := some soldAt }
      | .error _ => Async.assign fun l => l.restore pos) := by
  apply Async.Steady.bind
  · exact unnoted_take
  intro _
  apply Async.Steady.bind
  · exact unnoted_trySell
  intro res
  match res with
  | .ok () =>
      apply Async.Steady.bind
      · exact .perform rfl
      intro _
      apply Async.Steady.bind
      · apply Async.Steady.assign
        intro l here
        exact here
      intro _
      apply Async.Steady.bind
      · exact .perform rfl
      intro soldAt
      apply Async.Steady.assign
      intro l here
      exact here
  | .error e =>
      apply Async.Steady.assign
      rintro l _ pos' ⟨⟩
      exact priced

theorem unnoted_pnlExit {price : ℚ} : Unnoted g (pnlExit cfg dryRun price) := by
  intro l here
  rw [pnlExit, Async.wp_locals_bind]
  cases position : l.position with
  | none => exact here
  | some pos =>
      have priced : g.Prices (pos.updatePeak (pos.pnlPct price)).entryPriceSol := here pos position
      dsimp only
      generalize pos.updatePeak (pos.pnlPct price) = kept at priced ⊢
      rw [Async.wp_assign_bind]
      refine (show Unnoted g _ from ?_) _ ?_
      · apply Async.Steady.bind
        · exact .perform rfl
        intro now
        split
        · exact .pure _
        · exact unnoted_exitSale priced
      · rintro pos' ⟨⟩
        exact priced

/-! ### Buying -/

theorem noted_step {o : Op} {f : Reply o → SessionM α} {Q : EntryNotes → SessionLocals → α → Prop}
    (blank : l.position = none)
    (rest : ∀ r, Async.wp entryProtocol (f r) Q (g.next balanceFetchAttempts o r) l) :
    Async.wp entryProtocol (Async.perform o >>= f) Q g l :=
  notes_step (EntryNotes.covers_none blank) rest

/-- The session has no position, and returns one that the notes price, or none. -/
def EntryNotes.Offers (g : EntryNotes) (l : SessionLocals) (res : Option Position) : Prop :=
  l.position = none ∧ ∀ pos, res = some pos → g.Prices pos.entryPriceSol

theorem EntryNotes.offers_none (blank : l.position = none) : g.Offers l none :=
  ⟨blank, fun _ none_offered => nomatch none_offered⟩

theorem noted_releaseSlot (blank : l.position = none) :
    Async.wp entryProtocol releaseSlot EntryNotes.Offers g l := by
  apply noted_step blank
  intro _
  exact EntryNotes.offers_none blank

theorem noted_traderBuy {p : BuyParams} {f : Except BoxError (Option Signature) → SessionM α}
    {Q : EntryNotes → SessionLocals → α → Prop} (blank : l.position = none)
    (bought : ∀ g' res, g'.amountSol = p.amountSol → Async.wp entryProtocol (f res) Q g' l) :
    Async.wp entryProtocol (traderBuy cfg dryRun p >>= f) Q g l := by
  rw [traderBuy]
  refine Async.wp_bind.mpr (noted_step blank ?_)
  intro answers
  exact bought (g.next balanceFetchAttempts (.buy p) answers) _ rfl

theorem noted_recordDipBuy {trigger : EntryTrigger} {f : Unit → SessionM α}
    {Q : EntryNotes → SessionLocals → α → Prop} (blank : l.position = none)
    (rest : Async.wp entryProtocol (f ()) Q g l) :
    Async.wp entryProtocol (recordDipBuy cfg trigger >>= f) Q g l := by
  refine Async.wp_bind.mpr ?_
  unfold recordDipBuy
  split_ifs
  · apply noted_step blank
    intro _
    exact rest
  · exact rest

theorem noted_trackPosition {mint : Pubkey} {trigger : EntryTrigger} {slot : Int} {sig : Signature}
    (blank : l.position = none) (amount : g.amountSol = cfg.amountSol) :
    Async.wp entryProtocol (trackPosition cfg mint trigger slot sig) EntryNotes.Offers g l := by
  rw [trackPosition, Async.wp_locals_bind]
  apply noted_step blank
  intro boughtAt
  rw [Async.wp_assign_bind]
  apply notes_fetchBalance (EntryNotes.covers_none (by exact blank))
  · intro e
    apply noted_step (by exact blank)
    intro _
    exact noted_releaseSlot blank
  intro b
  dsimp only
  split_ifs with zero
  · exact noted_releaseSlot blank
  · apply noted_step (by exact blank)
    intro _
    refine ⟨blank, ?_⟩
    rintro pos ⟨⟩
    exact ⟨not_le.mp zero, congrArg (· / b.uiAmount) amount.symm⟩

theorem noted_buyInSlot {mint : Pubkey} {trigger : EntryTrigger} (blank : l.position = none) :
    Async.wp entryProtocol (buyInSlot cfg dryRun mint trigger) EntryNotes.Offers g l := by
  rw [buyInSlot, Async.wp_locals_bind]
  apply noted_step blank
  intro slot
  rw [Async.wp_assign_bind]
  split_ifs
  · exact noted_releaseSlot blank
  apply noted_traderBuy (by exact blank)
  intro g' res amount
  match res with
  | .ok (some sig) =>
      apply noted_recordDipBuy (by exact blank)
      exact noted_trackPosition (by exact blank) amount
  | .ok none =>
      apply noted_recordDipBuy (by exact blank)
      exact noted_releaseSlot blank
  | .error e => exact noted_releaseSlot blank

theorem noted_tryBuy {mint : Pubkey} {trigger : EntryTrigger} (blank : l.position = none) :
    Async.wp entryProtocol (tryBuy cfg dryRun mint trigger) EntryNotes.Offers g l := by
  apply noted_step blank
  intro _
  rw [Async.wp_assign_bind]
  split_ifs
  · apply noted_step (by exact blank)
    intro now
    apply noted_step (by exact blank)
    intro allowed
    match allowed with
    | .error spent => exact EntryNotes.offers_none blank
    | .ok () => exact noted_buyInSlot blank
  · exact noted_buyInSlot blank

theorem noted_enterPosition {mint : Pubkey} {trigger : EntryTrigger} (blank : l.position = none) :
    Async.wp entryProtocol (enterPosition cfg dryRun mint trigger) (fun g l _ => g.Covers l)
      g l := by
  refine Async.wp_bind.mpr (Async.wp_mono _ (noted_tryBuy blank) ?_)
  rintro g' l' res ⟨_, priced⟩
  exact priced

/-! ### The session -/

theorem coheres_gatedEntry {mint : Pubkey} {now : Instant} {trigger : EntryTrigger} :
    Async.Coheres entryProtocol (gatedEntry cfg dryRun mint now trigger) := by
  intro g l here
  rw [gatedEntry, Async.wp_locals_bind]
  split_ifs with held
  · exact here
  have blank : l.position = none := by simpa using held
  split
  · split_ifs
    · exact here
    · exact noted_enterPosition blank
  · exact noted_enterPosition blank

theorem coheres_perform {o : Op} (idle : o.isNoted = false) :
    Async.Coheres entryProtocol (Async.perform o : SessionM (Reply o)) :=
  Unnoted.coheres fun _ => .perform idle

theorem EntryNotes.Covers.aside {g : EntryNotes} {l l' : SessionLocals}
    (same : l'.position = l.position) (here : g.Covers l) : g.Covers l' := by
  intro pos position
  exact here pos (same ▸ position)

theorem coheres_onTick {mint : Pubkey} {u : PriceUpdate} :
    Async.Coheres entryProtocol (onTick cfg dryRun mint u) := by
  apply onTick_keeps
  · exact fun _ _ _ same => EntryNotes.Covers.aside same.1
  · exact fun _ _ => coheres_gatedEntry
  · exact fun _ _ _ _ here => here
  · exact fun _ _ => Unnoted.coheres fun _ => unnoted_sellForGood
  · exact fun _ => Unnoted.coheres fun _ => unnoted_pnlExit
  · exact coheres_perform rfl

theorem coheres_setup (o : Op) (setup : o.isSetup = true) :
    Async.Coheres entryProtocol (Async.perform o : SessionM (Reply o)) := by
  cases o with
  | spawnPricePoll mint =>
      apply Async.Coheres.perform
      · exact fun _ _ _ => trivial
      intro g _ l' _ here _ pos position
      exact ⟨(here pos position).positive, (here pos position).quotient⟩
  | fetchTokenMetadata mint => exact coheres_perform rfl
  | runFilters mint => exact coheres_perform rfl
  | sleepUntil deadline => exact coheres_perform rfl
  | now site =>
      cases site with
      | sessionStart => exact coheres_perform rfl
      | _ => cases setup
  | _ => cases setup

theorem coheres_runSession {mint : Pubkey} :
    Async.Coheres entryProtocol (runSession cfg dryRun mint) := by
  apply runSession_keeps fun o opening => coheres_setup o (isSetup_of_isOpening opening)
  · exact fun _ _ here => here
  · intro sessionStart
    apply Async.Coheres.assign
    intro g l _
    exact EntryNotes.covers_none rfl
  · exact sessionRound_keeps (coheres_perform rfl) fun _ => coheres_onTick
  · exact fun _ => Unnoted.coheres fun _ => unnoted_sellForGood

theorem coheres_sessionTask : Async.Coheres entryProtocol (sessionTask cfg dryRun) :=
  sessionTask_keeps coheres_setup (fun _ => coheres_runSession) fun _ _ _ same =>
    EntryNotes.Covers.aside same.1

end Session

/-! ### Copy sessions -/

/-- The entry price of a copy session is the one of its notes, once it polls the price. -/
def EntryNotes.CoversCopy (g : EntryNotes) (l : CopyLocals) : Prop :=
  g.polled = true → g.Prices l.entryPriceSol

abbrev copyEntryProtocol : Protocol EntryNotes World CopyLocals Op Reply :=
  notesProtocol copyBalanceFetchAttempts EntryNotes.CoversCopy

section Copy

variable {cfg : Market.Config} {dryRun : Bool} {α : Type} {g : EntryNotes} {l : CopyLocals}

theorem EntryNotes.coversCopy_unpolled (unpolled : g.polled = false) : g.CoversCopy l := by
  intro polled
  rw [unpolled] at polled
  cases polled

theorem unpolled_step {o : Op} {f : Reply o → CopyM α} {Q : EntryNotes → CopyLocals → α → Prop}
    (unpolled : g.polled = false)
    (rest : ∀ r, Async.wp copyEntryProtocol (f r) Q (g.next copyBalanceFetchAttempts o r) l) :
    Async.wp copyEntryProtocol (Async.perform o >>= f) Q g l :=
  notes_step (EntryNotes.coversCopy_unpolled unpolled) rest

theorem unpolled_release (unpolled : g.polled = false) :
    Async.wp copyEntryProtocol releaseCopySlot (fun g l _ => g.CoversCopy l) g l := by
  apply unpolled_step unpolled
  intro _
  exact EntryNotes.coversCopy_unpolled unpolled

theorem monitor_steady {price : ℚ} {deadline : Option Instant} :
    Async.Steady World (fun o => o.isNoted = false) (fun l => l.entryPriceSol = price) (do
      sleepUntil deadline
      Async.loop (copyRound cfg dryRun)
      let l ← Async.locals
      if l.sold then releaseCopySlot
      else do
        let _ ← doSell cfg dryRun l.lastPct .copyForcedExit
        releaseCopySlot) := by
  have release : Async.Steady World (fun o => o.isNoted = false)
      (fun l => l.entryPriceSol = price) releaseCopySlot := by
    apply Async.Steady.bind
    · exact .perform rfl
    intro _
    apply Async.Steady.assign
    intro l here
    exact here
  apply Async.Steady.bind
  · exact .perform rfl
  intro _
  apply Async.Steady.bind
  · apply Async.Steady.loop
    apply copyRound_steady cfg dryRun unnoted_of_isExit
    · intro l rugGuard peakPct lastPrice sold here
      exact here
    · exact fun _ => rfl
    · intro l here
      exact here
  intro _
  apply Async.Steady.bind
  · exact .locals
  intro l
  split_ifs
  · exact release
  · apply Async.Steady.bind
    · exact doSell_steady cfg dryRun unnoted_of_isExit _ _
    intro _
    exact release

theorem polled_monitorToExit {boughtAt : Instant} {price : ℚ} (priced : g.Prices price) :
    Async.wp copyEntryProtocol (monitorToExit cfg dryRun boughtAt price)
      (fun g l _ => g.CoversCopy l) g l := by
  have same (l : CopyLocals) (here : l.entryPriceSol = price) : g.CoversCopy l := by
    intro _
    rw [here]
    exact priced
  rw [monitorToExit, Async.wp_assign_bind]
  apply Async.Steady.wp monitor_steady rfl
  · exact same
  · exact fun _ _ _ _ => trivial
  · exact fun _ _ _ _ idle => EntryNotes.next_idle idle
  · exact fun l _ => same l

theorem unpolled_establish {mint : Pubkey} {buyRes : Except BoxError (Option Signature)}
    (live : buyRes ≠ .ok none) (unpolled : g.polled = false)
    (amount : g.amountSol = cfg.copyTrade.tradeAmountSol) :
    Async.wp copyEntryProtocol (establish cfg dryRun mint buyRes) (fun g l _ => g.CoversCopy l)
      g l := by
  rw [establish, Async.wp_locals_bind]
  apply unpolled_step unpolled
  intro _
  match buyRes with
  | .ok none => exact absurd rfl live
  | .error e => exact unpolled_release unpolled
  | .ok (some sig) =>
      apply unpolled_step unpolled
      intro boughtAt
      rw [Async.wp_assign_bind]
      apply notes_fetchBalance (EntryNotes.coversCopy_unpolled (by exact unpolled))
      · intro e
        apply unpolled_step (by exact unpolled)
        intro _
        exact unpolled_release unpolled
      intro b
      dsimp only
      split_ifs with zero
      · exact unpolled_release unpolled
      apply unpolled_step (by exact unpolled)
      intro _
      apply unpolled_step (by exact unpolled)
      intro _
      exact polled_monitorToExit ⟨not_le.mp zero, congrArg (· / b.uiAmount) amount.symm⟩

theorem unpolled_copyHandle (unpolled : g.polled = false) :
    Async.wp copyEntryProtocol (copyHandle cfg false) (fun g l _ => g.CoversCopy l) g l := by
  have done : g.CoversCopy l := EntryNotes.coversCopy_unpolled unpolled
  rw [copyHandle, Async.wp_locals_bind]
  cases Pubkey.fromStr l.alpha.mint with
  | none => exact done
  | some mint =>
      apply unpolled_step unpolled
      intro now
      apply unpolled_step unpolled
      intro allowed
      match allowed with
      | .error spent => exact done
      | .ok () =>
          apply unpolled_step unpolled
          intro slot
          rw [Async.wp_assign_bind]
          split_ifs
          · exact unpolled_release unpolled
          rw [traderBuy]
          refine Async.wp_bind.mpr (unpolled_step (by exact unpolled) ?_)
          intro answers
          exact unpolled_establish (buy_signed _ _ answers) unpolled rfl

end Copy

end HadesPsTrader.Tasks
