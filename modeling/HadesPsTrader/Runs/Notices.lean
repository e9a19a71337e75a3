/- Module: HadesPsTrader/Runs/Notices
   source: src/session.rs, src/copy_session.rs, src/discord.rs
   digest: The messages of a session tell its trades, in order and with consistent figures. -/

import HadesPsTrader.Chain.SellLandings
import HadesPsTrader.Interaction.History
import HadesPsTrader.Runs.CopyMode
import HadesPsTrader.Runs.CopyWalk
import HadesPsTrader.Runs.Graduation
import HadesPsTrader.Runs.SessionPieces
import HadesPsTrader.Runs.SessionWalk
import HadesPsTrader.Tasks.Discord

set_option autoImplicit false
set_option relaxedAutoImplicit false

namespace HadesPsTrader.Tasks

open HadesPsTrader.Market HadesPsTrader.Chain HadesPsTrader.Interaction

def noticeOf : (o : Op) → Reply o → Option Notice
  | .notify n, _ => some n
  | _, _ => none

/-- What the notices of a session say of it: it holds nothing, or what it bought last, or it is done
with trading. -/
inductive Tale
  | flat | holding | closed
  deriving DecidableEq

/-- The next notice of a session that may trade `again`. -/
def Tale.after (again : Bool) : Tale → Notice → Option Tale
  | .flat, .bought .. => some .holding
  | .flat, .orphan .. => some (if again then .flat else .closed)
  | .holding, .sold .. => some (if again then .flat else .closed)
  | _, _ => none

/-- The figures of a notice, when `amountSol` is traded at a time. -/
def Notice.Accounts (amountSol : ℚ) : Notice → Prop
  | .bought _ _ _ spent tokenUi entryPriceSol =>
      spent = amountSol ∧ 0 < tokenUi ∧ entryPriceSol * tokenUi = amountSol
  | .sold _ _ _ _ pct netReturnSol => netReturnSol = amountSol * pct / 100
  | .orphan _ _ _ _ spent _ => spent = amountSol

/-- Notices that tell a tale of trades of one token. -/
structure Told (again : Bool) (label : TokenLabel) (amountSol : ℚ) (tale : Tale)
    (notices : List Notice) : Prop where
  story : notices.foldlM (Tale.after again) .flat = some tale
  label : ∀ n ∈ notices, n.label = label
  accounts : ∀ n ∈ notices, n.Accounts amountSol
  parses : ∀ n ∈ notices, (Pubkey.fromStr n.label.mint).isSome

section Tales

variable {again : Bool} {label : TokenLabel} {amountSol : ℚ} {tale tale' : Tale}
  {notices : List Notice}

theorem Told.nothing : Told again label amountSol .flat [] := by
  refine ⟨rfl, ?_, ?_, ?_⟩
  all_goals
    intro n mem
    cases mem

theorem Told.tell {n : Notice} (told : Told again label amountSol tale notices)
    (next : tale.after again n = some tale') (labelled : n.label = label)
    (accounts : n.Accounts amountSol) (parses : (Pubkey.fromStr label.mint).isSome) :
    Told again label amountSol tale' (notices ++ [n]) := by
  constructor
  case story =>
    rw [List.foldlM_append, told.story]
    simpa using next
  case label => exact List.forall_mem_append.mpr ⟨told.label, by simpa using labelled⟩
  case accounts => exact List.forall_mem_append.mpr ⟨told.accounts, by simpa using accounts⟩
  case parses =>
    rw [← labelled] at parses
    exact List.forall_mem_append.mpr ⟨told.parses, by simpa using parses⟩

end Tales

section Sessions

variable {cfg : Market.Config} {mint : Pubkey} {α β : Type} {g : List Notice} {l : SessionLocals}

def SessionLocals.label (l : SessionLocals) : TokenLabel :=
  ⟨l.event.mint, l.event.name, l.event.symbol⟩

/-- The notices so far, with the locals of a session. -/
abbrev SessionTold (cfg : Market.Config) (tale : Tale) (g : List Notice) (l : SessionLocals) :
    Prop :=
  Told true l.label cfg.amountSol tale g

/-- The last notice is that of the buy of this position, at its cost and its entry price. -/
def TellsOf (notices : List Notice) (pos : Position) : Prop :=
  ∃ tokenUi, notices.getLast? =
    some (.bought pos.mint pos.name pos.symbol pos.costSol tokenUi pos.entryPriceSol)

/-- The notices tell a tale, and of an open position they have told last. -/
def Narrated (cfg : Market.Config) (g : List Notice) (l : SessionLocals) : Prop :=
  ∃ tale, SessionTold cfg tale g l ∧
    ∀ pos, l.position = some pos → tale = .holding ∧ TellsOf g pos

def narrating (cfg : Market.Config) : Protocol (List Notice) World SessionLocals Op Reply :=
  reporting World noticeOf (Narrated cfg)

/-- A session in its loop: its notices tell of its position, and of nothing else. -/
structure Accounted (cfg : Market.Config) (g : List Notice) (l : SessionLocals) : Prop where
  parses : (Pubkey.fromStr l.event.mint).isSome
  flat : l.position = none → SessionTold cfg .flat g l
  open_ : ∀ pos, l.position = some pos → SessionTold cfg .holding g l ∧
    (⟨pos.mint, pos.name, pos.symbol⟩ : TokenLabel) = l.label ∧ pos.costSol = cfg.amountSol ∧
    TellsOf g pos

theorem Accounted.narrated (here : Accounted cfg g l) : Narrated cfg g l := by
  cases opened : l.position with
  | none => exact ⟨.flat, here.flat opened, by simp [opened]⟩
  | some pos =>
      obtain ⟨told, _, _, tells⟩ := here.open_ pos opened
      refine ⟨.holding, told, ?_⟩
      intro pos' same
      cases opened.symm.trans same
      exact ⟨rfl, tells⟩

theorem Accounted.aside {l' : SessionLocals} (here : Accounted cfg g l)
    (event : l'.event = l.event) (position : l'.position = l.position) : Accounted cfg g l' := by
  have label : l'.label = l.label := by rw [SessionLocals.label, event, SessionLocals.label]
  refine ⟨?_, ?_, ?_⟩
  · rw [event]
    exact here.parses
  · rw [position, SessionTold, label]
    exact here.flat
  · rw [position, SessionTold, label]
    exact here.open_

/-- A session that has left its loop without a position, sold or not. -/
def Parted (cfg : Market.Config) (g : List Notice) (l : SessionLocals) : Prop :=
  l.position = none ∧ ∃ tale, SessionTold cfg tale g l

theorem Parted.narrated (parted : Parted cfg g l) : Narrated cfg g l := by
  obtain ⟨closed, tale, told⟩ := parted
  exact ⟨tale, told, by simp [closed]⟩

theorem quiet_step {o : Op} {f : Reply o → SessionM α} {Q : List Notice → SessionLocals → α → Prop}
    (here : Narrated cfg g l) (quiet : ∀ r, noticeOf o r = none)
    (rest : ∀ r, Async.wp (narrating cfg) (f r) Q g l) :
    Async.wp (narrating cfg) (Async.perform o >>= f) Q g l :=
  Async.wp_unreported here quiet rest

theorem narrated_trySell {pos : Position} {pct : ℚ} {reason : SellReason}
    {Q : List Notice → SessionLocals → Except BoxError Unit → Prop}
    (told : SessionTold cfg .holding g l) (closed : l.position = none)
    (parses : (Pubkey.fromStr l.event.mint).isSome)
    (label : (⟨pos.mint, pos.name, pos.symbol⟩ : TokenLabel) = l.label)
    (cost : pos.costSol = cfg.amountSol)
    (sold : ∀ g', SessionTold cfg .flat g' l → Q g' l (.ok ()))
    (failed : ∀ e, Q g l (.error e)) :
    Async.wp (narrating cfg) (trySell cfg false pos pct reason) Q g l := by
  have here : Narrated cfg g l := ⟨.holding, told, by simp [closed]⟩
  rw [trySell]
  apply quiet_step here fun _ => rfl
  intro _
  rw [traderSellAll]
  refine Async.wp_bind.mpr (quiet_step here (fun _ => rfl) ?_)
  intro answers
  generalize settled : (Chain.sellAll _ _ false answers).result = res
  cases res with
  | error e => exact failed e
  | ok signature =>
    cases signature with
    | none => exact absurd settled (sellAll_signed _ _ _)
    | some sig =>
      apply quiet_step here fun _ => rfl
      intro balance
      apply Async.wp_reported here fun _ => rfl
      intro _
      apply sold
      refine told.tell rfl ?_ ?_ parses
      · exact label
      · change pos.costSol * pct / 100 = cfg.amountSol * pct / 100
        rw [cost]

theorem narrated_sellForGood {pct : Position → ℚ} {reason : SellReason}
    (here : Accounted cfg g l) :
    Async.wp (narrating cfg) (sellForGood cfg false pct reason) (fun g l _ => Parted cfg g l)
      g l := by
  rw [sellForGood, Async.wp_locals_bind]
  cases opened : l.position with
  | none => exact ⟨opened, .flat, here.flat opened⟩
  | some pos =>
      obtain ⟨told, label, cost, _⟩ := here.open_ pos opened
      rw [Async.wp_assign_bind]
      have settled (g' : List Notice) (tale : Tale) (told' : SessionTold cfg tale g' l.take) :
          Async.wp (narrating cfg) (do
            let _ ← fetchSub
            Async.assign SessionLocals.settle) (fun g l _ => Parted cfg g l) g' l.take := by
        apply quiet_step ⟨tale, told', by simp [SessionLocals.take]⟩ fun _ => rfl
        intro _
        exact ⟨rfl, tale, told'⟩
      refine Async.wp_bind.mpr (narrated_trySell told rfl here.parses label cost ?_ ?_)
      · exact fun g' told' => settled g' .flat told'
      · exact fun _ => settled g .holding told

theorem accounted_pnlExit {price : ℚ} :
    Async.Keeps (narrating cfg) (Accounted cfg) (pnlExit cfg false price) := by
  intro g l here
  rw [pnlExit, Async.wp_locals_bind]
  cases opened : l.position with
  | none => exact here
  | some pos =>
      obtain ⟨told, label, cost, tells⟩ := here.open_ pos opened
      have peaked : Accounted cfg g { l with
          position := some (pos.updatePeak (pos.pnlPct price)) } := by
        refine ⟨here.parses, fun none => absurd none (Option.some_ne_none _), ?_⟩
        rintro pos' ⟨⟩
        exact ⟨told, label, cost, tells⟩
      rw [Async.wp_assign_bind]
      apply quiet_step peaked.narrated fun _ => rfl
      intro now
      dsimp only
      split
      · exact peaked
      · rw [Async.wp_assign_bind]
        refine Async.wp_bind.mpr (narrated_trySell told rfl here.parses label cost ?_ ?_)
        · intro g' told'
          have sold : Accounted cfg g' { l with position := none, selling := none } :=
            ⟨here.parses, fun _ => told', fun _ none => by cases none⟩
          apply quiet_step ⟨.flat, told', by simp [SessionLocals.take]⟩ fun _ => rfl
          intro _
          rw [Async.wp_assign_bind]
          apply quiet_step sold.narrated fun _ => rfl
          intro soldAt
          exact sold.aside rfl rfl
        · intro e
          refine ⟨here.parses, fun none => absurd none (Option.some_ne_none _), ?_⟩
          rintro pos' ⟨⟩
          exact ⟨told, label, cost, tells⟩

/-- A session without a position, which may buy. -/
structure Flat (cfg : Market.Config) (g : List Notice) (l : SessionLocals) : Prop where
  parses : (Pubkey.fromStr l.event.mint).isSome
  told : SessionTold cfg .flat g l
  empty : l.position = none

theorem Flat.accounted (flat : Flat cfg g l) : Accounted cfg g l := by
  refine ⟨flat.parses, fun _ => flat.told, ?_⟩
  intro pos opened
  rw [flat.empty] at opened
  cases opened

theorem Flat.narrated (flat : Flat cfg g l) : Narrated cfg g l := flat.accounted.narrated

theorem Flat.frame (flat : Flat cfg g l) (buying : Option BuyFrame) :
    Flat cfg g { l with buying := buying } := ⟨flat.parses, flat.told, flat.empty⟩

/-- What a buy comes to: no position, or one that was told of. -/
def BuyTold (cfg : Market.Config) (g : List Notice) (l : SessionLocals) (x : Option Position) :
    Prop := Accounted cfg g { l with position := x }

theorem Flat.noBuy (flat : Flat cfg g l) : BuyTold cfg g l none :=
  ⟨flat.parses, fun _ => flat.told, nofun⟩

theorem told_releaseSlot (flat : Flat cfg g l) :
    Async.wp (narrating cfg) releaseSlot (BuyTold cfg) g l := by
  rw [releaseSlot]
  apply quiet_step flat.narrated fun _ => rfl
  intro _
  exact flat.noBuy

theorem told_recordDipBuy {trigger : EntryTrigger} :
    Async.Keeps (narrating cfg) (Flat cfg) (recordDipBuy cfg trigger) := by
  intro g l flat
  rw [recordDipBuy]
  split_ifs
  · apply quiet_step flat.narrated fun _ => rfl
    intro _
    exact flat
  · exact flat

theorem told_fetchBalance {attempts : Nat} {f : Except BalanceError TokenBalance → SessionM α}
    {Q : List Notice → SessionLocals → α → Prop} (here : Narrated cfg g l)
    (rest : ∀ balance, Async.wp (narrating cfg) (f balance) Q g l) :
    Async.wp (narrating cfg) (fetchBalance attempts mint >>= f) Q g l := by
  rw [fetchBalance]
  refine Async.wp_bind.mpr (quiet_step here (fun _ => rfl) ?_)
  intro answers
  exact rest _

/-- A confirmed buy is told of as an orphan or as a position, unless the wallet has nothing of it. -/
theorem told_trackPosition {trigger : EntryTrigger} {slot : Int} {sig : Signature}
    (flat : Flat cfg g l) :
    Async.wp (narrating cfg) (trackPosition cfg mint trigger slot sig) (BuyTold cfg) g l := by
  rw [trackPosition, Async.wp_locals_bind]
  apply quiet_step flat.narrated fun _ => rfl
  intro boughtAt
  rw [Async.wp_assign_bind]
  have framed := flat.frame (some
    { trigger := trigger, slot := some slot, boughtAt := some boughtAt })
  apply told_fetchBalance framed.narrated
  intro balance
  match balance with
  | .error e =>
      apply Async.wp_reported framed.narrated fun _ => rfl
      intro _
      refine told_releaseSlot ⟨flat.parses, ?_, flat.empty⟩
      exact framed.told.tell rfl rfl rfl flat.parses
  | .ok b =>
      dsimp only
      split_ifs with nothing
      · exact told_releaseSlot framed
      · have amount : 0 < b.uiAmount := not_le.mp nothing
        apply Async.wp_reported framed.narrated fun _ => rfl
        intro _
        refine ⟨flat.parses, nofun, ?_⟩
        rintro pos ⟨⟩
        refine ⟨framed.told.tell rfl rfl ?_ flat.parses, rfl, rfl, b.uiAmount,
          List.getLast?_concat⟩
        exact ⟨rfl, amount, div_mul_cancel₀ _ amount.ne'⟩

theorem told_buyInSlot {trigger : EntryTrigger} (flat : Flat cfg g l) :
    Async.wp (narrating cfg) (buyInSlot cfg false mint trigger) (BuyTold cfg) g l := by
  rw [buyInSlot, Async.wp_locals_bind]
  apply quiet_step flat.narrated fun _ => rfl
  intro slot
  rw [Async.wp_assign_bind]
  have framed := flat.frame (some { trigger := trigger, slot := some slot })
  split_ifs
  · exact told_releaseSlot framed
  refine Async.wp_bind.mpr ?_
  rw [traderBuy]
  apply quiet_step framed.narrated fun _ => rfl
  intro answers
  generalize (Chain.buy (jitoSettings cfg) _ false answers).result = buyRes
  cases buyRes with
  | error e => exact told_releaseSlot framed
  | ok signature =>
    cases signature with
    | none =>
      refine Async.wp_bind.mpr (Async.wp_mono _ (told_recordDipBuy _ _ framed) ?_)
      exact fun _ _ _ flat' => told_releaseSlot flat'
    | some sig =>
      refine Async.wp_bind.mpr (Async.wp_mono _ (told_recordDipBuy _ _ framed) ?_)
      exact fun _ _ _ flat' => told_trackPosition flat'

theorem told_tryBuy {trigger : EntryTrigger} (flat : Flat cfg g l) :
    Async.wp (narrating cfg) (tryBuy cfg false mint trigger) (BuyTold cfg) g l := by
  rw [tryBuy]
  apply quiet_step flat.narrated fun _ => rfl
  intro _
  rw [Async.wp_assign_bind]
  have framed := flat.frame (some { trigger := trigger })
  split_ifs
  · apply quiet_step framed.narrated fun _ => rfl
    intro now
    apply quiet_step framed.narrated fun _ => rfl
    intro allowed
    match allowed with
    | .error spent => exact framed.noBuy
    | .ok () => exact told_buyInSlot framed
  · exact told_buyInSlot framed

theorem accounted_gatedEntry {now : Instant} {trigger : EntryTrigger} :
    Async.Keeps (narrating cfg) (Accounted cfg) (gatedEntry cfg false mint now trigger) := by
  intro g l here
  have enters (empty : l.position = none) :
      Async.wp (narrating cfg) (enterPosition cfg false mint trigger)
        (fun g l _ => Accounted cfg g l) g l := by
    have flat : Flat cfg g l := ⟨here.parses, here.flat empty, empty⟩
    rw [enterPosition]
    refine Async.wp_bind.mpr (Async.wp_mono _ (told_tryBuy flat) ?_)
    intro g' l' position bought
    exact bought.aside rfl rfl
  rw [gatedEntry, Async.wp_locals_bind]
  split_ifs with held
  · exact here
  have empty : l.position = none := by simpa using held
  split
  · split_ifs
    · exact here
    · exact enters empty
  · exact enters empty

/-- What a round of the loop leaves behind. -/
def RoundTold (cfg : Market.Config) (g : List Notice) (l : SessionLocals) : Option Unit → Prop
  | none => Accounted cfg g l
  | some () => Accounted cfg g l ∨ Parted cfg g l

theorem told_onTick {u : PriceUpdate} (here : Accounted cfg g l) :
    Async.wp (narrating cfg) (onTick cfg false mint u) (RoundTold cfg) g l := by
  rw [onTick, Async.wp_assign_bind, Async.wp_locals_bind]
  have noted : Accounted cfg g { l with
      lastPrice := some u.priceSol
      rugGuard := l.rugGuard.observe u.priceSol u.poolSol } := here.aside rfl rfl
  dsimp only
  split
  · refine Async.wp_bind.mpr (Async.wp_mono _ (narrated_sellForGood noted) ?_)
    exact fun _ _ _ parted => .inr parted
  · refine Async.wp_bind.mpr (Async.wp_mono _ (accounted_pnlExit _ _ noted) ?_)
    intro g₁ l₁ _ here₁
    apply quiet_step here₁.narrated fun _ => rfl
    intro now
    have charts (g : List Notice) (l l' : SessionLocals) (recharted : l.Recharted l')
        (here : Accounted cfg g l) : Accounted cfg g l' := by
      obtain ⟨_, _, _, _, rfl⟩ := recharted
      exact here.aside rfl rfl
    refine Async.wp_mono _ (entries_chart charts (fun _ _ => accounted_gatedEntry) _ _ here₁) ?_
    intro g₂ l₂ x here₂
    cases x with
    | none => exact here₂
    | some done => exact .inl here₂

theorem told_sessionRound (here : Accounted cfg g l) :
    Async.wp (narrating cfg) (sessionRound cfg false mint) (RoundTold cfg) g l := by
  rw [sessionRound]
  apply quiet_step here.narrated fun _ => rfl
  intro event
  match event with
  | .deadline => exact .inl here
  | .tick none => exact .inl here
  | .tick (some sample) => exact told_onTick here

theorem narrated_fresh (fresh : l.position = none) : Narrated cfg [] l :=
  ⟨.flat, .nothing, by simp [fresh]⟩

theorem told_runSession (parses : (Pubkey.fromStr l.event.mint).isSome)
    (fresh : l.position = none) :
    Async.wp (narrating cfg) (runSession cfg false mint) (fun g l _ => Narrated cfg g l) [] l := by
  have flat : Flat cfg [] l := ⟨parses, .nothing, fresh⟩
  rw [runSession]
  apply quiet_step flat.narrated fun _ => rfl
  intro sessionStart
  rw [Async.wp_locals_bind]
  apply quiet_step flat.narrated fun _ => rfl
  intro polled
  rw [Async.wp_assign_bind]
  have started : Flat cfg [] (.start cfg l.event sessionStart) := ⟨parses, .nothing, rfl⟩
  apply quiet_step started.narrated fun _ => rfl
  intro armed
  refine Async.wp_bind.mpr (Async.wp_loop (Accounted cfg) started.accounted
    (fun _ _ here => here.narrated) ?_)
  intro g l here
  refine Async.wp_mono _ (told_sessionRound here) ?_
  intro g' l' x ends
  match x with
  | none => exact ends
  | some () =>
      rw [Async.wp_locals_bind]
      rcases ends with here | parted
      · exact Async.wp_mono _ (narrated_sellForGood here) fun _ _ _ parted => parted.narrated
      · rw [sellForGood, Async.wp_locals_bind, parted.1]
        exact parted.narrated

theorem told_ahead {o : Op} (quiet : ∀ r, noticeOf o r = none) :
    Async.Keeps (narrating cfg) (fun g l => g = [] ∧ l.position = none)
      (Async.perform o : SessionM (Reply o)) := by
  rintro g l ⟨rfl, fresh⟩
  exact quiet_step (narrated_fresh fresh) quiet fun _ => ⟨rfl, fresh⟩

theorem told_sessionTask (fresh : l.position = none) :
    Async.wp (narrating cfg) (sessionTask cfg false) (fun g l _ => Narrated cfg g l) [] l := by
  apply sessionTask_wp (fun _ => told_ahead fun _ => rfl) ?_ ?_
    (fun _ => told_ahead fun _ => rfl) (fun _ _ _ _ here => here) ⟨rfl, fresh⟩
  · rintro g l ⟨rfl, fresh⟩
    exact narrated_fresh fresh
  · rintro mint g l parsed ⟨rfl, fresh⟩
    have parses : (Pubkey.fromStr l.event.mint).isSome := by rw [parsed]; rfl
    exact told_runSession parses fresh

end Sessions

section Copies

variable {cfg : Market.Config} {mint : Pubkey} {α : Type} {g : List Notice} {l : CopyLocals}

def CopyLocals.label (l : CopyLocals) : TokenLabel := ⟨l.alpha.mint, none, l.alpha.symbol⟩

/-- The notices so far of a copy session, which buys once. -/
abbrev CopyTold (cfg : Market.Config) (tale : Tale) (g : List Notice) (l : CopyLocals) : Prop :=
  Told false l.label cfg.copyTrade.tradeAmountSol tale g

def CopyNarrated (cfg : Market.Config) (g : List Notice) (l : CopyLocals) : Prop :=
  ∃ tale, CopyTold cfg tale g l

def copyNarrating (cfg : Market.Config) : Protocol (List Notice) World CopyLocals Op Reply :=
  reporting World noticeOf (CopyNarrated cfg)

/-- A copy session before its exit. -/
structure CopyHolds (cfg : Market.Config) (g : List Notice) (l : CopyLocals) : Prop where
  parses : (Pubkey.fromStr l.alpha.mint).isSome
  told : CopyTold cfg .holding g l

theorem CopyHolds.narrated (holds : CopyHolds cfg g l) : CopyNarrated cfg g l := ⟨_, holds.told⟩

theorem CopyHolds.noted (holds : CopyHolds cfg g l) (rugGuard : RugGuard) (peakPct : ℚ)
    (lastPrice : Option ℚ) (sold : Bool) :
    CopyHolds cfg g (l.noted rugGuard peakPct lastPrice sold) := ⟨holds.parses, holds.told⟩

/-- What a round of the monitor loop leaves behind: a session that holds, or one marked as sold. -/
def CopyRoundTold (cfg : Market.Config) (g : List Notice) (l : CopyLocals) : Option Unit → Prop
  | none => CopyHolds cfg g l
  | some () => CopyHolds cfg g l ∨ l.sold = true ∧ CopyNarrated cfg g l

theorem copyQuiet_step {o : Op} {f : Reply o → CopyM α} {Q : List Notice → CopyLocals → α → Prop}
    (here : CopyNarrated cfg g l) (quiet : ∀ r, noticeOf o r = none)
    (rest : ∀ r, Async.wp (copyNarrating cfg) (f r) Q g l) :
    Async.wp (copyNarrating cfg) (Async.perform o >>= f) Q g l :=
  Async.wp_unreported here quiet rest

theorem copyTold_doSell {pct : ℚ} {reason : SellReason}
    {Q : List Notice → CopyLocals → Except BoxError Unit → Prop} (holds : CopyHolds cfg g l)
    (sold : ∀ g', CopyTold cfg .closed g' l → Q g' l (.ok ())) (failed : ∀ e, Q g l (.error e)) :
    Async.wp (copyNarrating cfg) (doSell cfg false pct reason) Q g l := by
  rw [doSell]
  apply copyQuiet_step holds.narrated fun _ => rfl
  intro _
  rw [Async.wp_locals_bind, traderSellAll]
  refine Async.wp_bind.mpr (copyQuiet_step holds.narrated (fun _ => rfl) ?_)
  intro answers
  generalize settled : (Chain.sellAll _ _ false answers).result = res
  cases res with
  | error e => exact failed e
  | ok signature =>
    cases signature with
    | none => exact absurd settled (sellAll_signed _ _ _)
    | some sig =>
      apply copyQuiet_step holds.narrated fun _ => rfl
      intro balance
      apply Async.wp_reported holds.narrated fun _ => rfl
      intro _
      apply sold
      exact holds.told.tell rfl rfl rfl holds.parses

theorem copyTold_sellAndLeave {pct : ℚ} {reason : SellReason} (holds : CopyHolds cfg g l) :
    Async.wp (copyNarrating cfg) (sellAndLeave cfg false pct reason) (CopyRoundTold cfg) g l := by
  rw [sellAndLeave]
  refine Async.wp_bind.mpr (copyTold_doSell holds ?_ ?_)
  · exact fun g' told => .inr ⟨rfl, .closed, told⟩
  · exact fun _ => .inl (holds.noted l.rugGuard l.peakPct l.lastPrice true)

theorem copyTold_onMirror {r : Received AlphaTrade} (holds : CopyHolds cfg g l) :
    Async.wp (copyNarrating cfg) (onMirror cfg false r) (CopyRoundTold cfg) g l := by
  rw [onMirror, Async.wp_locals_bind]
  cases r with
  | got sell =>
      dsimp only
      split_ifs
      · exact copyTold_sellAndLeave holds
      · exact holds
  | lagged n => exact holds
  | closed => exact ⟨holds.parses, holds.told⟩

theorem copyTold_onCopyTick {u : PriceUpdate} (holds : CopyHolds cfg g l) :
    Async.wp (copyNarrating cfg) (onCopyTick cfg false u) (CopyRoundTold cfg) g l := by
  rw [onCopyTick, Async.wp_assign_bind, Async.wp_locals_bind]
  dsimp only
  split
  · exact copyTold_sellAndLeave (holds.noted (l.rugGuard.observe u.priceSol u.poolSol) l.peakPct
      (some u.priceSol) l.sold)
  · rw [Async.wp_assign_bind]
    have noted (peakPct : ℚ) (sold : Bool) := holds.noted
      (l.rugGuard.observe u.priceSol u.poolSol) peakPct (some u.priceSol) sold
    apply copyQuiet_step (noted _ l.sold).narrated fun _ => rfl
    intro now
    split
    · exact noted _ l.sold
    · refine Async.wp_bind.mpr (copyTold_doSell (noted _ l.sold) ?_ ?_)
      · exact fun g' told => .inr ⟨rfl, .closed, told⟩
      · exact fun _ => noted _ l.sold

theorem copyTold_copyRound (holds : CopyHolds cfg g l) :
    Async.wp (copyNarrating cfg) (copyRound cfg false) (CopyRoundTold cfg) g l := by
  rw [copyRound, Async.wp_locals_bind]
  apply copyQuiet_step holds.narrated fun _ => rfl
  intro event
  match event with
  | .deadline => exact copyTold_sellAndLeave holds
  | .shutdown (.got ()) => exact copyTold_sellAndLeave holds
  | .shutdown .closed => exact copyTold_sellAndLeave holds
  | .shutdown (.lagged _) => exact holds
  | .mirror r => exact copyTold_onMirror holds
  | .tick none => exact .inl holds
  | .tick (some sample) => exact copyTold_onCopyTick holds

theorem copyTold_releaseCopySlot (here : CopyNarrated cfg g l) :
    Async.wp (copyNarrating cfg) releaseCopySlot (fun g l _ => CopyNarrated cfg g l) g l := by
  rw [releaseCopySlot]
  apply copyQuiet_step here fun _ => rfl
  intro _
  exact here

theorem copyTold_monitorToExit {boughtAt : Instant} {price : ℚ} (holds : CopyHolds cfg g l) :
    Async.wp (copyNarrating cfg) (monitorToExit cfg false boughtAt price)
      (fun g l _ => CopyNarrated cfg g l) g l := by
  rw [monitorToExit, Async.wp_assign_bind]
  have opened : CopyHolds cfg g { l with
      boughtAt := some boughtAt
      entryPriceSol := price
      mirrorOpen := cfg.copyTrade.mirrorExit } := ⟨holds.parses, holds.told⟩
  apply copyQuiet_step opened.narrated fun _ => rfl
  intro armed
  refine Async.wp_bind.mpr (Async.wp_loop (CopyHolds cfg) opened (fun _ _ here => here.narrated) ?_)
  intro g l holds
  refine Async.wp_mono _ (copyTold_copyRound holds) ?_
  intro g' l' x ends
  match x with
  | none => exact ends
  | some () =>
      rw [Async.wp_locals_bind]
      split_ifs with sold
      · rcases ends with holds | ⟨_, here⟩
        · exact copyTold_releaseCopySlot holds.narrated
        · exact copyTold_releaseCopySlot here
      · have holds : CopyHolds cfg g' l' := by
          rcases ends with holds | ⟨done, _⟩
          · exact holds
          · exact absurd done sold
        refine Async.wp_bind.mpr (copyTold_doSell holds ?_ ?_)
        · exact fun g'' told => copyTold_releaseCopySlot ⟨.closed, told⟩
        · exact fun _ => copyTold_releaseCopySlot holds.narrated

theorem copyTold_establish {buyRes : Except BoxError (Option Signature)}
    (signed : buyRes ≠ .ok none) (parses : (Pubkey.fromStr l.alpha.mint).isSome) :
    Async.wp (copyNarrating cfg) (establish cfg false mint buyRes)
      (fun g l _ => CopyNarrated cfg g l) [] l := by
  have nothing (boughtAt : Option Instant) :
      CopyTold cfg .flat [] { l with boughtAt := boughtAt } := .nothing
  rw [establish, Async.wp_locals_bind]
  apply copyQuiet_step ⟨.flat, nothing l.boughtAt⟩ fun _ => rfl
  intro total
  cases buyRes with
  | error e => exact copyTold_releaseCopySlot ⟨.flat, nothing l.boughtAt⟩
  | ok signature =>
    cases signature with
    | none => exact absurd rfl signed
    | some sig =>
      apply copyQuiet_step ⟨.flat, nothing l.boughtAt⟩ fun _ => rfl
      intro boughtAt
      rw [Async.wp_assign_bind, fetchBalance]
      refine Async.wp_bind.mpr (copyQuiet_step ⟨.flat, nothing _⟩ (fun _ => rfl) ?_)
      intro answers
      generalize Chain.fetchTokenBalance copyBalanceFetchAttempts answers = balance
      cases balance with
      | error e =>
          apply Async.wp_reported ⟨.flat, nothing (some boughtAt)⟩ fun _ => rfl
          intro _
          apply copyTold_releaseCopySlot
          exact ⟨.closed, (nothing (some boughtAt)).tell rfl rfl rfl parses⟩
      | ok b =>
          change Async.wp _ (if b.uiAmount ≤ 0 then _ else _) _ _ _
          split_ifs with empty
          · exact copyTold_releaseCopySlot ⟨.flat, nothing (some boughtAt)⟩
          · have amount : 0 < b.uiAmount := not_le.mp empty
            have bought := (nothing (some boughtAt)).tell
              (n := .bought l.alpha.mint none l.alpha.symbol cfg.copyTrade.tradeAmountSol b.uiAmount
                (cfg.copyTrade.tradeAmountSol / b.uiAmount))
              rfl rfl ⟨rfl, amount, div_mul_cancel₀ _ amount.ne'⟩ parses
            apply Async.wp_reported ⟨.flat, nothing (some boughtAt)⟩ fun _ => rfl
            intro _
            apply copyQuiet_step ⟨.holding, bought⟩ fun _ => rfl
            intro polled
            exact copyTold_monitorToExit ⟨parses, bought⟩

theorem copyTold_copyHandle (alpha : AlphaTrade) :
    Async.wp (copyNarrating cfg) (copyHandle cfg false) (fun g l _ => CopyNarrated cfg g l) []
      { alpha := alpha } := by
  have nothing (slot : Option Int) : CopyNarrated cfg [] { alpha := alpha, slot := slot } :=
    ⟨.flat, .nothing⟩
  rw [copyHandle, Async.wp_locals_bind]
  dsimp only
  cases parsed : Pubkey.fromStr alpha.mint with
  | none => exact nothing none
  | some mint =>
      apply copyQuiet_step (nothing none) fun _ => rfl
      intro now
      apply copyQuiet_step (nothing none) fun _ => rfl
      intro allowed
      match allowed with
      | .error spent => exact nothing none
      | .ok () =>
          apply copyQuiet_step (nothing none) fun _ => rfl
          intro slot
          rw [Async.wp_assign_bind]
          split_ifs
          · exact copyTold_releaseCopySlot (nothing (some slot))
          · rw [traderBuy]
            refine Async.wp_bind.mpr (copyQuiet_step (nothing (some slot)) (fun _ => rfl) ?_)
            intro answers
            apply copyTold_establish (buy_signed _ _ answers)
            rw [parsed]
            rfl

end Copies

section Runs

variable {cfg : Market.Config} {start : Instant} {i : Nat}

def notices {L : Type} (i : Nat) (tr : Trace World L Op Reply Env) : List Notice :=
  events i noticeOf tr

theorem session_narrated {admits : GradAdmit} {tr : GradTrace} {c : GradConfig}
    (run : GradRun cfg false start admits tr c) {t : TaskProc SessionLocals}
    (here : c.tasks[i]? = some t) : Narrated cfg (notices i tr) t.locals := by
  have kept : Proc.wp (narrating cfg) t (fun g l _ => Narrated cfg g l)
      (ghost (narrating cfg) [] i tr) := by
    refine graduation_protocol (narrating cfg) (fun g l _ => Narrated cfg g l) [] ?_ ?_ run i t here
    · exact fun ev now => told_sessionTask rfl
    · intros
      trivial
  rw [narrating, ghost_reporting] at kept
  exact Proc.coherent_of_wp kept fun _ _ _ narrated => narrated

theorem copy_narrated {admits : CopyAdmit} {tr : CopyTrace} {c : CopyConfig}
    (run : CopyRun cfg false start admits tr c) {t : TaskProc CopyLocals}
    (here : c.tasks[i]? = some t) : CopyNarrated cfg (notices i tr) t.locals := by
  have kept : Proc.wp (copyNarrating cfg) t (fun g l _ => CopyNarrated cfg g l)
      (ghost (copyNarrating cfg) [] i tr) := by
    refine copy_protocol (copyNarrating cfg) (fun g l _ => CopyNarrated cfg g l) [] ?_ ?_ run i t
      here
    · exact copyTold_copyHandle
    · intros
      trivial
  rw [copyNarrating, ghost_reporting] at kept
  exact Proc.coherent_of_wp kept fun _ _ _ narrated => narrated

/-- The messages of a live session tell its trades. A graduation session posts buys and sells in
turn, with orphans between them, and what it posted last of an open position is its buy, at the entry
price that the exits are judged by; a copy session posts one buy and at most its one sell, or one
orphan. All of them are about one token, account for the amount
traded, and can be posted. -/
theorem notices_tell_trades (cfg : Market.Config) (start : Instant) :
    (∀ tr c, GradRun cfg false start always tr c → ∀ (i : Nat) t, c.tasks[i]? = some t →
      (∃ tale, Told true t.locals.label cfg.amountSol tale (notices i tr) ∧
        ∀ pos, t.locals.position = some pos → tale = .holding ∧ TellsOf (notices i tr) pos) ∧
      ∀ n ∈ notices i tr, ∀ notifier : Notifier, notifier.post n ≠ .error .panicked) ∧
    ∀ tr c, CopyRun cfg false start always tr c → ∀ (i : Nat) t, c.tasks[i]? = some t →
      (∃ tale, Told false t.locals.label cfg.copyTrade.tradeAmountSol tale (notices i tr)) ∧
      ∀ n ∈ notices i tr, ∀ notifier : Notifier, notifier.post n ≠ .error .panicked := by
  constructor
  · intro tr c run i t here
    obtain ⟨tale, told, held⟩ := session_narrated run here
    exact ⟨⟨tale, told, held⟩, fun n mem notifier => notifier.post_calm (told.parses n mem)⟩
  · intro tr c run i t here
    obtain ⟨tale, told⟩ := copy_narrated run here
    exact ⟨⟨tale, told⟩, fun n mem notifier => notifier.post_calm (told.parses n mem)⟩

end Runs

theorem notices_tell_trades_time_cap : ∃ (tr : GradTrace) (c : GradConfig),
    (notices 0 tr).length = 2 ∧ ∀ (i : Nat) t, c.tasks[i]? = some t →
      ∃ tale, Told true t.locals.label eager.amountSol tale (notices i tr) := by
  obtain ⟨tr, c, run, posted⟩ := System.script_reaches (graduation eager false)
    (graduationStart eager 0)
    (warmUp 0 ++ buyTick readyNet 0 9 ++ [.env (.advance (fromSecs 60))] ++ price 0 1 10 ++
      go readyNet 0 9)
    (fun tr _ => (notices 0 tr).length = 2) (by decide +kernel)
  refine ⟨tr, c, of_decide_eq_true posted, ?_⟩
  intro i t here
  obtain ⟨⟨tale, told, _⟩, _⟩ := (notices_tell_trades eager 0).1 tr c run i t here
  exact ⟨tale, told⟩

end HadesPsTrader.Tasks
