/- Module: HadesPsTrader/Runs/TradeRequests
   source: src/session.rs, src/copy_session.rs, src/trader.rs
   digest: Every request that a session sends trades its own token, with the configured figures. -/

import HadesPsTrader.Chain.Ladder
import HadesPsTrader.Interaction.History
import HadesPsTrader.Runs.CopyMode
import HadesPsTrader.Runs.CopyWalk
import HadesPsTrader.Runs.Graduation
import HadesPsTrader.Runs.SessionWalk

set_option autoImplicit false
set_option relaxedAutoImplicit false

namespace HadesPsTrader.Tasks

open HadesPsTrader.Market HadesPsTrader.Chain HadesPsTrader.Interaction

section Requests

variable (cfg : Market.Config) (amountSol : ℚ) (mint : String)

def buyRequest (slippage : ℚ) : TradeBody where
  action := .buy
  mint := mint
  amount := .sol amountSol
  denominatedInSol := true
  slippage := slippage
  priorityFee := cfg.trading.priorityFeeSol

def sellRequest (slippage : ℚ) : TradeBody where
  action := .sell
  mint := mint
  amount := .all
  denominatedInSol := false
  slippage := slippage
  priorityFee := cfg.trading.priorityFeeSol

/-- What a live trade call puts on the wire climbs from the configured slippage: a buy in at most
three attempts, a sell in at most twenty. -/
def AsConfigured : (o : Op) → Reply o → Prop
  | .buy p, answers =>
      Climbs (jitoSettings cfg) answers (buyRequest cfg amountSol mint) cfg.trading.slippage 0 3
        (Chain.buy (jitoSettings cfg) p false answers).wire
  | .sellAll p, answers =>
      Climbs (jitoSettings cfg) answers (sellRequest cfg mint) cfg.trading.slippage 0 20
        (Chain.sellAll (jitoSettings cfg) p false answers).wire
  | _, _ => True

/-- All trades that a task has performed are as configured. -/
def TradesAsConfigured (done : List (Sigma Reply)) : Prop :=
  ∀ x ∈ done, AsConfigured cfg amountSol mint x.1 x.2

end Requests

section Calls

variable {cfg : Market.Config} {amountSol : ℚ} {mint : String} {done : List (Sigma Reply)}

theorem TradesAsConfigured.perform {o : Op} {r : Reply o}
    (trades : TradesAsConfigured cfg amountSol mint done)
    (next : AsConfigured cfg amountSol mint o r) :
    TradesAsConfigured cfg amountSol mint (done ++ [⟨o, r⟩]) := by
  intro x mem
  rcases List.mem_append.mp mem with before | here
  · exact trades x before
  · cases List.mem_singleton.mp here
    exact next

theorem buy_asConfigured {p : BuyParams} (answers : Nat → SubmitAnswers) (token : p.mint = mint)
    (amount : p.amountSol = amountSol) (slippage : p.slippagePct = cfg.trading.slippage)
    (fee : p.priorityFeeSol = cfg.trading.priorityFeeSol) :
    AsConfigured cfg amountSol mint (.buy p) answers := by
  have body : p.body = buyRequest cfg amountSol mint := by
    funext s
    rw [BuyParams.body, buyRequest, token, amount, fee]
  have climbs := buy_climbs (jitoSettings cfg) answers p
  rw [body, slippage] at climbs
  exact climbs

theorem sellAll_asConfigured {p : SellAllParams} (answers : Nat → SubmitAnswers)
    (token : p.mint = mint) (slippage : p.slippagePct = cfg.trading.slippage)
    (fee : p.priorityFeeSol = cfg.trading.priorityFeeSol) :
    AsConfigured cfg amountSol mint (.sellAll p) answers := by
  have body : p.body = sellRequest cfg mint := by
    funext s
    rw [SellAllParams.body, sellRequest, token, fee]
  have climbs := sellAll_climbs (jitoSettings cfg) answers p
  rw [body, slippage] at climbs
  exact climbs

end Calls

section Sessions

variable {cfg : Market.Config} {token : String} {mint : Pubkey} {α β : Type}

/-- The discipline of a session that trades the token of its event only. -/
def faithful (cfg : Market.Config) : Protocol (List (Sigma Reply)) World SessionLocals Op Reply :=
  recording World (fun done l => TradesAsConfigured cfg cfg.amountSol l.event.mint done)
    fun _ _ _ => True

structure About (cfg : Market.Config) (token : String) (done : List (Sigma Reply))
    (l : SessionLocals) : Prop where
  trades : TradesAsConfigured cfg cfg.amountSol token done
  event : l.event.mint = token
  position : ∀ pos, l.position = some pos → pos.mint = token

theorem About.coherent {done : List (Sigma Reply)} {l : SessionLocals}
    (about : About cfg token done l) : (faithful cfg).coherent done l := by
  change TradesAsConfigured cfg cfg.amountSol l.event.mint done
  rw [about.event]
  exact about.trades

theorem About.aside {done : List (Sigma Reply)} {l l' : SessionLocals}
    (about : About cfg token done l) (event : l'.event = l.event)
    (position : ∀ pos, l'.position = some pos → pos.mint = token) : About cfg token done l' where
  trades := about.trades
  event := by rw [event, about.event]
  position := position

theorem perform_stays {o : Op} (next : ∀ r, AsConfigured cfg cfg.amountSol token o r) :
    Async.Keeps (faithful cfg) (About cfg token) (Async.perform o : SessionM (Reply o)) := by
  apply Async.Keeps.perform
  · exact fun _ _ about => about.coherent
  · exact fun _ _ _ => trivial
  · intro done s l r about _
    exact ⟨about.trades.perform (next r), about.event, about.position⟩

theorem assign_stays {u : SessionLocals → SessionLocals} (event : ∀ l, (u l).event = l.event)
    (position : ∀ l, (u l).position = l.position) :
    Async.Keeps (faithful cfg) (About cfg token) (Async.assign u : SessionM Unit) := by
  apply Async.Keeps.assign
  intro done l about
  refine about.aside (event l) ?_
  rw [position]
  exact about.position

/-- A buy that comes to no position of another token. -/
def Opens (cfg : Market.Config) (token : String) (m : SessionM (Option Position)) : Prop :=
  ∀ done l, About cfg token done l → Async.wp (faithful cfg) m
    (fun done l x => About cfg token done l ∧ ∀ pos, x = some pos → pos.mint = token) done l

theorem Opens.bind {m : SessionM α} {f : α → SessionM (Option Position)}
    (first : Async.Keeps (faithful cfg) (About cfg token) m) (rest : ∀ a, Opens cfg token (f a)) :
    Opens cfg token (m >>= f) := by
  intro done l about
  rw [Async.wp_bind]
  refine Async.wp_mono m (first done l about) ?_
  exact fun done' l' a about' => rest a done' l' about'

theorem Opens.locals_bind {f : SessionLocals → SessionM (Option Position)}
    (rest : ∀ l, l.event.mint = token → Opens cfg token (f l)) :
    Opens cfg token (Async.locals >>= f) := by
  intro done l about
  exact rest l about.event done l about

theorem Opens.none : Opens cfg token (pure Option.none) := fun _ _ about => ⟨about, nofun⟩

theorem releaseSlot_opens : Opens cfg token releaseSlot := by
  apply Opens.bind
  · exact perform_stays fun _ => trivial
  intro _
  exact .none

theorem recordDipBuy_stays {trigger : EntryTrigger} :
    Async.Keeps (faithful cfg) (About cfg token) (recordDipBuy cfg trigger) := by
  unfold recordDipBuy
  split_ifs
  · apply Async.Keeps.bind
    · exact perform_stays fun _ => trivial
    intro _
    exact .pure _
  · exact .pure _

theorem trackPosition_opens {trigger : EntryTrigger} {slot : Int} {sig : Chain.Signature} :
    Opens cfg token (trackPosition cfg mint trigger slot sig) := by
  apply Opens.locals_bind
  intro l event
  apply Opens.bind
  · exact perform_stays fun _ => trivial
  intro boughtAt
  apply Opens.bind
  · exact assign_stays (fun _ => rfl) fun _ => rfl
  intro _
  apply Opens.bind
  · apply Async.Keeps.bind
    · exact perform_stays fun _ => trivial
    intro answers
    exact .pure _
  intro balance
  cases balance with
  | error e =>
    apply Opens.bind
    · exact perform_stays fun _ => trivial
    intro _
    exact releaseSlot_opens
  | ok b =>
    dsimp only
    split_ifs
    · exact releaseSlot_opens
    · apply Opens.bind
      · exact perform_stays fun _ => trivial
      intro _ done l' about
      refine ⟨about, ?_⟩
      intro pos same
      cases same
      exact event

theorem buyInSlot_opens {trigger : EntryTrigger} :
    Opens cfg token (buyInSlot cfg false mint trigger) := by
  apply Opens.locals_bind
  intro l event
  apply Opens.bind
  · exact perform_stays fun _ => trivial
  intro slot
  apply Opens.bind
  · exact assign_stays (fun _ => rfl) fun _ => rfl
  intro _
  split_ifs
  · exact releaseSlot_opens
  apply Opens.bind
  · apply Async.Keeps.bind
    · exact perform_stays fun answers => buy_asConfigured answers event rfl rfl rfl
    intro answers
    exact .pure _
  intro bought
  match bought with
  | .ok (some sig) =>
    apply Opens.bind
    · exact recordDipBuy_stays
    intro _
    exact trackPosition_opens
  | .ok none =>
    apply Opens.bind
    · exact recordDipBuy_stays
    intro _
    exact releaseSlot_opens
  | .error e => exact releaseSlot_opens

theorem tryBuy_opens {trigger : EntryTrigger} :
    Opens cfg token (tryBuy cfg false mint trigger) := by
  apply Opens.bind
  · exact perform_stays fun _ => trivial
  intro _
  apply Opens.bind
  · exact assign_stays (fun _ => rfl) fun _ => rfl
  intro _
  split_ifs
  · apply Opens.bind
    · exact perform_stays fun _ => trivial
    intro now
    apply Opens.bind
    · exact perform_stays fun _ => trivial
    intro allowed
    cases allowed with
    | error spent => exact .none
    | ok _ => exact buyInSlot_opens
  · exact buyInSlot_opens

theorem enterPosition_stays {trigger : EntryTrigger} :
    Async.Keeps (faithful cfg) (About cfg token) (enterPosition cfg false mint trigger) := by
  intro done l about
  rw [enterPosition, Async.wp_bind]
  refine Async.wp_mono _ (tryBuy_opens done l about) ?_
  rintro done' l' position ⟨about', opened⟩
  exact about'.aside rfl opened

theorem trySell_stays {pos : Position} {pct : ℚ} {reason : SellReason} (own : pos.mint = token) :
    Async.Keeps (faithful cfg) (About cfg token) (trySell cfg false pos pct reason) := by
  apply Async.Keeps.bind
  · exact perform_stays fun _ => trivial
  intro _
  apply Async.Keeps.bind
  · apply Async.Keeps.bind
    · exact perform_stays fun answers => sellAll_asConfigured answers own rfl rfl
    intro answers
    exact .pure _
  intro res
  match res with
  | .ok (some sig) =>
    apply Async.Keeps.bind
    · exact perform_stays fun _ => trivial
    intro _
    apply Async.Keeps.bind
    · exact perform_stays fun _ => trivial
    intro _
    exact .pure _
  | .ok none => exact .pure _
  | .error e => exact .pure _

theorem held_bind {f : SessionLocals → SessionM β} (rest : ∀ l,
      (∀ pos, l.position = some pos → pos.mint = token) →
      Async.Keeps (faithful cfg) (About cfg token) (f l)) :
    Async.Keeps (faithful cfg) (About cfg token) (Async.locals >>= f) :=
  .locals_bind fun _ l about => rest l about.position

theorem take_stays :
    Async.Keeps (faithful cfg) (About cfg token) (Async.assign SessionLocals.take : SessionM Unit) :=
  .assign fun _ _ about => about.aside rfl nofun

theorem sellForGood_stays {pct : Position → ℚ} {reason : SellReason} :
    Async.Keeps (faithful cfg) (About cfg token) (sellForGood cfg false pct reason) := by
  apply held_bind
  intro l own
  cases held : l.position with
  | none => exact .pure _
  | some pos =>
    apply Async.Keeps.bind
    · exact take_stays
    intro _
    apply Async.Keeps.bind
    · exact trySell_stays (own pos held)
    intro _
    apply Async.Keeps.bind
    · exact perform_stays fun _ => trivial
    intro _
    exact assign_stays (fun _ => rfl) fun _ => rfl

theorem pnlExit_stays {price : ℚ} :
    Async.Keeps (faithful cfg) (About cfg token) (pnlExit cfg false price) := by
  apply held_bind
  intro l own
  cases held : l.position with
  | none => exact .pure _
  | some pos =>
    have ours : ∀ pct, (pos.updatePeak pct).mint = token := fun _ => own pos held
    apply Async.Keeps.bind
    · apply Async.Keeps.assign
      intro done l' about
      refine about.aside rfl ?_
      intro pos' same
      cases same
      exact ours _
    intro _
    apply Async.Keeps.bind
    · exact perform_stays fun _ => trivial
    intro now
    dsimp only
    split
    · exact .pure _
    · apply Async.Keeps.bind
      · exact take_stays
      intro _
      apply Async.Keeps.bind
      · exact trySell_stays (ours _)
      intro res
      match res with
      | .ok () =>
        apply Async.Keeps.bind
        · exact perform_stays fun _ => trivial
        intro _
        apply Async.Keeps.bind
        · exact assign_stays (fun _ => rfl) fun _ => rfl
        intro _
        apply Async.Keeps.bind
        · exact perform_stays fun _ => trivial
        intro soldAt
        exact assign_stays (fun _ => rfl) fun _ => rfl
      | .error e =>
        apply Async.Keeps.assign
        intro done l' about
        refine about.aside rfl ?_
        intro pos' same
        cases same
        exact ours _

theorem onTick_stays {u : PriceUpdate} :
    Async.Keeps (faithful cfg) (About cfg token) (onTick cfg false mint u) := by
  apply Async.Keeps.bind
  · exact assign_stays (fun _ => rfl) fun _ => rfl
  intro _
  apply Async.Keeps.bind
  · exact .locals
  intro l
  split
  · apply Async.Keeps.bind
    · exact sellForGood_stays
    intro _
    exact .pure _
  · apply Async.Keeps.bind
    · exact pnlExit_stays
    intro _
    apply Async.Keeps.bind
    · exact perform_stays fun _ => trivial
    intro now
    apply entries_chart
    · rintro done l l' ⟨_, _, _, _, rfl⟩ about
      exact about.aside rfl about.position
    · intro now trigger
      exact gatedEntry_keeps enterPosition_stays

theorem runSession_stays : Async.Keeps (faithful cfg) (About cfg token)
    (runSession cfg false mint) := by
  apply runSession_keeps
  · intro o setup
    apply perform_stays
    intro r
    cases o with
    | _ => first | exact trivial | cases setup
  · exact fun _ _ about => about.coherent
  · intro t
    apply Async.Keeps.assign
    intro done l about
    exact about.aside rfl nofun
  · apply sessionRound_keeps
    · exact perform_stays fun _ => trivial
    · exact fun _ => onTick_stays
  · exact fun _ => sellForGood_stays

theorem handle_stays : Async.Keeps (faithful cfg) (About cfg token) (handle cfg false) := by
  apply handle_keeps
  · intro o setup
    apply perform_stays
    intro r
    cases o with
    | _ => first | exact trivial | cases setup
  · exact fun _ => runSession_stays

theorem sessionTask_stays : Async.Keeps (faithful cfg) (About cfg token) (sessionTask cfg false) := by
  apply Async.Keeps.bind
  · exact .locals
  intro l
  split
  · apply Async.Keeps.bind
    · exact perform_stays fun _ => trivial
    intro looked
    cases looked with
    | error e => exact handle_stays
    | ok named =>
      apply Async.Keeps.bind
      · apply Async.Keeps.assign
        intro done l about
        exact ⟨about.trades, about.event, about.position⟩
      intro _
      exact handle_stays
  · exact handle_stays

end Sessions

section Copies

variable {cfg : Market.Config} {token : String} {mint : Pubkey} {α : Type}

/-- The discipline of a copy session that trades the copied token only. -/
def faithfulCopy (cfg : Market.Config) : Protocol (List (Sigma Reply)) World CopyLocals Op Reply :=
  recording World
    (fun done l => TradesAsConfigured cfg cfg.copyTrade.tradeAmountSol l.alpha.mint done)
    fun _ _ _ => True

structure Copies (cfg : Market.Config) (token : String) (done : List (Sigma Reply))
    (l : CopyLocals) : Prop where
  trades : TradesAsConfigured cfg cfg.copyTrade.tradeAmountSol token done
  alpha : l.alpha.mint = token

theorem Copies.coherent {done : List (Sigma Reply)} {l : CopyLocals}
    (copies : Copies cfg token done l) : (faithfulCopy cfg).coherent done l := by
  change TradesAsConfigured cfg cfg.copyTrade.tradeAmountSol l.alpha.mint done
  rw [copies.alpha]
  exact copies.trades

theorem perform_copies {o : Op}
    (next : ∀ r, AsConfigured cfg cfg.copyTrade.tradeAmountSol token o r) :
    Async.Keeps (faithfulCopy cfg) (Copies cfg token) (Async.perform o : CopyM (Reply o)) := by
  apply Async.Keeps.perform
  · exact fun _ _ copies => copies.coherent
  · exact fun _ _ _ => trivial
  · intro done s l r copies _
    exact ⟨copies.trades.perform (next r), copies.alpha⟩

theorem assign_copies {u : CopyLocals → CopyLocals} (alpha : ∀ l, (u l).alpha = l.alpha) :
    Async.Keeps (faithfulCopy cfg) (Copies cfg token) (Async.assign u : CopyM Unit) := by
  apply Async.Keeps.assign
  intro done l copies
  refine ⟨copies.trades, ?_⟩
  rw [alpha, copies.alpha]

theorem copied_bind {f : CopyLocals → CopyM α} (rest : ∀ l, l.alpha.mint = token →
      Async.Keeps (faithfulCopy cfg) (Copies cfg token) (f l)) :
    Async.Keeps (faithfulCopy cfg) (Copies cfg token) (Async.locals >>= f) :=
  .locals_bind fun _ l copies => rest l copies.alpha

theorem doSell_copies {pct : ℚ} {reason : SellReason} :
    Async.Keeps (faithfulCopy cfg) (Copies cfg token) (doSell cfg false pct reason) := by
  apply Async.Keeps.bind
  · exact perform_copies fun _ => trivial
  intro _
  apply copied_bind
  intro l alpha
  apply Async.Keeps.bind
  · apply Async.Keeps.bind
    · exact perform_copies fun answers => sellAll_asConfigured answers alpha rfl rfl
    intro answers
    exact .pure _
  intro res
  match res with
  | .ok (some sig) =>
    apply Async.Keeps.bind
    · exact perform_copies fun _ => trivial
    intro _
    apply Async.Keeps.bind
    · exact perform_copies fun _ => trivial
    intro _
    exact .pure _
  | .ok none => exact .pure _
  | .error e => exact .pure _

theorem releaseCopySlot_copies :
    Async.Keeps (faithfulCopy cfg) (Copies cfg token) releaseCopySlot := by
  apply Async.Keeps.bind
  · exact perform_copies fun _ => trivial
  intro _
  exact assign_copies fun _ => rfl

theorem monitorToExit_copies {boughtAt : Instant} {price : ℚ} :
    Async.Keeps (faithfulCopy cfg) (Copies cfg token)
      (monitorToExit cfg false boughtAt price) := by
  apply Async.Keeps.bind
  · exact assign_copies fun _ => rfl
  intro _
  apply Async.Keeps.bind
  · exact perform_copies fun _ => trivial
  intro _
  apply Async.Keeps.bind
  · apply Async.Keeps.loop
    · exact fun _ _ copies => copies.coherent
    · apply copyRound_keeps
      · exact fun _ _ _ _ _ _ copies => ⟨copies.trades, copies.alpha⟩
      · exact fun _ _ => doSell_copies
      · exact perform_copies fun _ => trivial
      · exact fun _ _ copies => ⟨copies.trades, copies.alpha⟩
      · exact fun _ => perform_copies fun _ => trivial
  intro _
  apply Async.Keeps.bind
  · exact .locals
  intro l
  split_ifs
  · exact releaseCopySlot_copies
  · apply Async.Keeps.bind
    · exact doSell_copies
    intro _
    exact releaseCopySlot_copies

theorem firstPrice_copies : Async.Keeps (faithfulCopy cfg) (Copies cfg token) firstPrice := by
  apply Async.Keeps.loop
  · exact fun _ _ copies => copies.coherent
  apply Async.Keeps.bind
  · exact perform_copies fun _ => trivial
  intro received
  cases received with
  | none => exact .pure _
  | some sample =>
    dsimp only
    split_ifs
    · exact .pure _
    · exact .pure _

theorem establish_copies {bought : Except BoxError (Option Chain.Signature)} :
    Async.Keeps (faithfulCopy cfg) (Copies cfg token) (establish cfg false mint bought) := by
  apply Async.Keeps.bind
  · exact .locals
  intro l
  apply Async.Keeps.bind
  · exact perform_copies fun _ => trivial
  intro _
  match bought with
  | .error e => exact releaseCopySlot_copies
  | .ok none =>
    apply Async.Keeps.bind
    · exact perform_copies fun _ => trivial
    intro _
    apply Async.Keeps.bind
    · exact firstPrice_copies
    intro first
    cases first with
    | none => exact releaseCopySlot_copies
    | some price =>
      apply Async.Keeps.bind
      · exact perform_copies fun _ => trivial
      intro boughtAt
      exact monitorToExit_copies
  | .ok (some sig) =>
    apply Async.Keeps.bind
    · exact perform_copies fun _ => trivial
    intro boughtAt
    apply Async.Keeps.bind
    · exact assign_copies fun _ => rfl
    intro _
    apply Async.Keeps.bind
    · apply Async.Keeps.bind
      · exact perform_copies fun _ => trivial
      intro answers
      exact .pure _
    intro balance
    cases balance with
    | error e =>
      apply Async.Keeps.bind
      · exact perform_copies fun _ => trivial
      intro _
      exact releaseCopySlot_copies
    | ok b =>
      dsimp only
      split_ifs
      · exact releaseCopySlot_copies
      · apply Async.Keeps.bind
        · exact perform_copies fun _ => trivial
        intro _
        apply Async.Keeps.bind
        · exact perform_copies fun _ => trivial
        intro _
        exact monitorToExit_copies

theorem copyHandle_copies :
    Async.Keeps (faithfulCopy cfg) (Copies cfg token) (copyHandle cfg false) := by
  apply copied_bind
  intro l alpha
  cases Pubkey.fromStr l.alpha.mint with
  | none => exact .pure _
  | some mint =>
    apply Async.Keeps.bind
    · exact perform_copies fun _ => trivial
    intro now
    apply Async.Keeps.bind
    · exact perform_copies fun _ => trivial
    intro allowed
    match allowed with
    | .error spent => exact .pure _
    | .ok () =>
      apply Async.Keeps.bind
      · exact perform_copies fun _ => trivial
      intro slot
      apply Async.Keeps.bind
      · exact assign_copies fun _ => rfl
      intro _
      split_ifs
      · exact releaseCopySlot_copies
      · apply Async.Keeps.bind
        · apply Async.Keeps.bind
          · exact perform_copies fun answers => buy_asConfigured answers alpha rfl rfl rfl
          intro answers
          exact .pure _
        intro bought
        exact establish_copies

end Copies

section Runs

variable (cfg : Market.Config) (start : Instant)

theorem session_faithful (ev : MigrationEvent) (now : Instant) :
    Proc.wp (faithful cfg) (sessionTask cfg false (.start cfg ev now))
      (fun done l _ => (faithful cfg).coherent done l) [] := by
  have fresh : About cfg ev.mint [] (.start cfg ev now) :=
    ⟨fun _ none => absurd none List.not_mem_nil, rfl, nofun⟩
  have stays : Async.wp (faithful cfg) (sessionTask cfg false)
      (fun done l _ => About cfg ev.mint done l) [] (.start cfg ev now) :=
    sessionTask_stays [] _ fresh
  exact Async.wp_mono _ stays fun _ _ _ about => about.coherent

theorem copy_faithful (alpha : AlphaTrade) :
    Proc.wp (faithfulCopy cfg) (copyHandle cfg false { alpha := alpha })
      (fun done l _ => (faithfulCopy cfg).coherent done l) [] := by
  have fresh : Copies cfg alpha.mint [] { alpha := alpha } :=
    ⟨fun _ none => absurd none List.not_mem_nil, rfl⟩
  have copies : Async.wp (faithfulCopy cfg) (copyHandle cfg false)
      (fun done l _ => Copies cfg alpha.mint done l) [] { alpha := alpha } :=
    copyHandle_copies [] _ fresh
  exact Async.wp_mono _ copies fun _ _ _ copied => copied.coherent

/-- In every live run each trade call of a session is about the one token of the session: the mint of
its migration, or that of the copied buy. All its requests carry the configured amount, the whole
holding for a sell, and the configured fee, with the tip for a bundle; the slippage starts at the
configured one and rises by one step per attempt, at most twice for a buy and nineteen times for a
sell, and only after an attempt whose transaction was not confirmed. -/
theorem trades_as_configured :
    (∀ tr c, GradRun cfg false start always tr c → ∀ (i : Nat) t, c.tasks[i]? = some t →
      ∀ o r, ⟨o, r⟩ ∈ history i tr → AsConfigured cfg cfg.amountSol t.locals.event.mint o r) ∧
    ∀ tr c, CopyRun cfg false start always tr c → ∀ (i : Nat) t, c.tasks[i]? = some t →
      ∀ o r, ⟨o, r⟩ ∈ history i tr →
        AsConfigured cfg cfg.copyTrade.tradeAmountSol t.locals.alpha.mint o r := by
  constructor
  · intro tr c run i t here o r performed
    have stays := graduation_protocol (faithful cfg) (fun done l _ => (faithful cfg).coherent done l)
      [] (session_faithful cfg) ?_ run i t here
    · have done := Proc.coherent_of_wp stays fun _ _ _ coherent => coherent
      rw [faithful, ghost_recording] at done
      exact done _ performed
    · intros
      trivial
  · intro tr c run i t here o r performed
    have copies := copy_protocol (faithfulCopy cfg)
      (fun done l _ => (faithfulCopy cfg).coherent done l) [] (copy_faithful cfg)
      ?_ run i t here
    · have done := Proc.coherent_of_wp copies fun _ _ _ coherent => coherent
      rw [faithfulCopy, ghost_recording] at done
      exact done _ performed
    · intros
      trivial

end Runs

theorem trades_as_configured_dip_buy : ∃ (tr : GradTrace) (c : GradConfig),
    performed 0 (fun o => o matches .buy _) tr = 1 ∧
      ∀ (i : Nat) t, c.tasks[i]? = some t → ∀ o r, ⟨o, r⟩ ∈ history i tr →
        AsConfigured eager eager.amountSol t.locals.event.mint o r := by
  obtain ⟨tr, c, run, bought⟩ := System.script_reaches (graduation eager false)
    (graduationStart eager 0) (warmUp 0 ++ buyTick readyNet 0 6)
    (fun tr _ => performed 0 (fun o => o matches .buy _) tr = 1) (by decide +kernel)
  exact ⟨tr, c, of_decide_eq_true bought, (trades_as_configured eager 0).1 tr c run⟩

end HadesPsTrader.Tasks
