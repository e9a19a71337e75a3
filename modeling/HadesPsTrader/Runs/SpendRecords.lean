/- Module: HadesPsTrader/Runs/SpendRecords
   source: src/session.rs, src/copy_session.rs, src/dip_buy.rs
   digest: Which buys of a run are recorded as spent. -/

import HadesPsTrader.Runs.SessionPieces
import HadesPsTrader.Runs.SessionWalk
import HadesPsTrader.Runs.SpendCap

set_option autoImplicit false
set_option relaxedAutoImplicit false

namespace HadesPsTrader.Tasks

open HadesPsTrader.Market HadesPsTrader.Chain HadesPsTrader.Interaction

def buyOk (cfg : Market.Config) (dryRun : Bool) (p : BuyParams) (answers : Nat → SubmitAnswers) :
    Bool :=
  (Chain.buy (jitoSettings cfg) p dryRun answers).result.isOk

/-- The amounts of the buys of one session that fall under the cap, of those that returned `Ok`, and
of those it recorded. -/
structure Ledger where
  attempts : List ℚ := []
  entries : List ℚ := []
  records : List ℚ := []
  deriving DecidableEq

namespace Ledger

/-- The ledger after a buy that falls under the cap. -/
def bought (g : Ledger) (amountSol : ℚ) (ok : Bool) : Ledger :=
  { g with
    attempts := g.attempts ++ [amountSol]
    entries := g.entries ++ if ok then [amountSol] else [] }

def recorded (g : Ledger) (amountSol : ℚ) : Ledger :=
  { g with records := g.records ++ [amountSol] }

/-- "Caller should record on success": a session records an amount exactly when it has just entered
for it. -/
def RecordsEntry (g : Ledger) : Op → Prop
  | .spendRecord amountSol => g.entries = g.records ++ [amountSol]
  | _ => g.entries = g.records

/-- The same for every attempt. -/
def RecordsAttempt (g : Ledger) : Op → Prop
  | .spendRecord amountSol => g.attempts = g.records ++ [amountSol]
  | _ => g.attempts = g.records

theorem RecordsEntry.entries_eq {g : Ledger} {o : Op} (entry : g.RecordsEntry o)
    (attempt : g.RecordsAttempt o) : g.entries = g.attempts := by
  cases o with
  | spendRecord amountSol => exact Eq.trans entry (Eq.symm attempt)
  | _ => exact Eq.trans entry (Eq.symm attempt)

theorem RecordsAttempt.recordsEntry {g : Ledger} {o : Op} (attempt : g.RecordsAttempt o)
    (same : g.entries = g.attempts) : g.RecordsEntry o := by
  cases o with
  | spendRecord amountSol => exact same.trans attempt
  | _ => exact same.trans attempt

end Ledger

section Ledgers

variable {L : Type} (cfg : Market.Config) (dryRun : Bool) (capped : L → Bool)

/-- The ledger after one more operation; `capped` says for which locals a buy falls under the
cap. -/
def Ledger.next (g : Ledger) (l : L) : (o : Op) → Reply o → Ledger
  | .buy p, answers => if capped l then g.bought p.amountSol (buyOk cfg dryRun p answers) else g
  | .spendRecord amountSol, _ => g.recorded amountSol
  | _, _ => g

/-- Sessions that ask for operations as `fits` says. -/
def ledgerProtocol (fits : Ledger → Op → Prop) : Protocol Ledger World L Op Reply where
  coherent _ _ := True
  guard g _ o := fits g o
  valid _ _ _ _ _ := True
  next g _ l o r := g.next cfg dryRun capped l o r

def ledger (i : Nat) (tr : Trace World L Op Reply Env) : Ledger :=
  ghost (ledgerProtocol cfg dryRun capped fun _ _ => True) {} i tr

end Ledgers

/-! ### Sessions that settle -/

def Op.spends : Op → Bool
  | .buy _ => true
  | .spendRecord _ => true
  | _ => false

section Settling

variable {L : Type} {cfg : Market.Config} {dryRun : Bool} {capped : L → Bool}
  {fits : Ledger → Op → Prop} {J : Ledger → Prop} {α : Type}

theorem Ledger.next_other {g : Ledger} {l : L} {o : Op} {r : Reply o} (other : o.spends = false) :
    g.next cfg dryRun capped l o r = g := by
  cases o with
  | buy p => cases other
  | spendRecord amountSol => cases other
  | _ => rfl

theorem keeps_of_steady {m : Async L Op Reply α}
    (fitting : ∀ g o, J g → o.spends = false → fits g o)
    (calm : Async.Steady World (fun o => o.spends = false) (fun _ => True) m) :
    Async.Keeps (ledgerProtocol cfg dryRun capped fits) (fun g _ => J g) m := by
  intro g l here
  apply calm.wp trivial
  · exact fun _ _ => trivial
  · exact fun _ o _ other => fitting g o here other
  · exact fun w l o r other => Ledger.next_other other
  · exact fun _ _ _ => here

theorem ledger_traderBuy {p : BuyParams} {f : Except BoxError (Option Signature) → TaskM L α}
    {Q : Ledger → L → α → Prop} {g : Ledger} {l : L} (asked : fits g (.buy p))
    (answered : ∀ res, Async.wp (ledgerProtocol cfg dryRun capped fits) (f res) Q
      (if capped l then g.bought p.amountSol res.isOk else g) l) :
    Async.wp (ledgerProtocol cfg dryRun capped fits) (traderBuy cfg dryRun p >>= f) Q g l := by
  rw [traderBuy]
  refine Async.wp_bind.mpr (Async.wp_step trivial asked ?_)
  intro w answers _
  exact answered _

end Settling

section Graduation

variable {cfg : Market.Config} {dryRun : Bool} {α : Type} {mint : Pubkey} {now : Instant}
  {u : PriceUpdate}

/-- In a session the buys of the dip-buy trigger fall under the cap. -/
def dipBuys (l : SessionLocals) : Bool := l.buying.any fun f => f.trigger = .dipBuy

variable (cfg dryRun) in
/-- Pieces of a session between which all its entries are recorded. -/
abbrev Settles (m : SessionM α) : Prop :=
  Async.Keeps (ledgerProtocol cfg dryRun dipBuys Ledger.RecordsEntry)
    (fun g _ => g.entries = g.records) m

theorem recordsEntry_of_settled (g : Ledger) (o : Op) (settled : g.entries = g.records)
    (other : o.spends = false) : g.RecordsEntry o := by
  cases o with
  | spendRecord amountSol => cases other
  | _ => exact settled

theorem spends_of_isUnwinding (o : Op) (unwinding : o.isUnwinding = true) : o.spends = false := by
  cases o with
  | buy p => cases unwinding
  | spendRecord amountSol => cases unwinding
  | _ => rfl

theorem settles_of_steady {m : SessionM α}
    (calm : Async.Steady World (fun o => o.spends = false) (fun _ => True) m) :
    Settles cfg dryRun m :=
  keeps_of_steady recordsEntry_of_settled calm

theorem settles_perform {o : Op} (other : o.spends = false) :
    Settles cfg dryRun (Async.perform o) :=
  settles_of_steady (.perform other)

theorem settles_assign {f : SessionLocals → SessionLocals} :
    Settles cfg dryRun (Async.assign f) :=
  .assign fun _ _ settled => settled

theorem settles_releaseSlot : Settles cfg dryRun releaseSlot :=
  settles_of_steady (releaseSlot_steady fun o unwinding _ => spends_of_isUnwinding o unwinding)

/-- After a buy that succeeded, and falls under the cap if the trigger is the dip buy. -/
def Owing (cfg : Market.Config) (trigger : EntryTrigger) (g : Ledger) : Prop :=
  g.entries = g.records ++ if trigger = .dipBuy then [cfg.amountSol] else []

theorem owing_recordDipBuy {trigger : EntryTrigger} {g : Ledger} {l : SessionLocals}
    (owing : Owing cfg trigger g) :
    Async.wp (ledgerProtocol cfg dryRun dipBuys Ledger.RecordsEntry) (recordDipBuy cfg trigger)
      (fun g _ _ => g.entries = g.records) g l := by
  unfold recordDipBuy
  split_ifs with dip
  · rw [Owing, if_pos dip] at owing
    apply Async.wp_step
    · trivial
    · exact owing
    · intro w r _
      exact owing
  · rw [Owing, if_neg dip, List.append_nil] at owing
    exact owing

theorem settles_buyInSlot {trigger : EntryTrigger} :
    Settles cfg dryRun (buyInSlot cfg dryRun mint trigger) := by
  intro g l settled
  rw [buyInSlot, Async.wp_locals_bind]
  apply Async.wp_step
  · trivial
  · exact settled
  intro w slot _
  rw [Async.wp_assign_bind]
  split_ifs
  · exact settles_releaseSlot g _ settled
  apply ledger_traderBuy
  · exact settled
  intro res
  -- the buy falls under the cap when the frame is one of the dip buy
  have owing (ok : res.isOk = true) : Owing cfg trigger
      (if dipBuys { l with buying := some { trigger := trigger, slot := some slot } } then
        g.bought cfg.amountSol res.isOk else g) := by
    rw [Owing, dipBuys, Option.any_some]
    by_cases dip : trigger = .dipBuy
    · simp [dip, Ledger.bought, settled, ok]
    · simp [dip, settled]
  match res with
  | .ok (some sig) =>
      apply Async.wp_bind.mpr
      apply Async.wp_mono _ (owing_recordDipBuy (owing rfl))
      intro g' l' _ settled'
      exact settles_of_steady (trackPosition_steady
        (fun o unwinding _ => spends_of_isUnwinding o unwinding) fun _ _ _ _ => trivial)
        g' l' settled'
  | .ok none =>
      apply Async.wp_bind.mpr
      apply Async.wp_mono _ (owing_recordDipBuy (owing rfl))
      intro g' l' _ settled'
      exact settles_releaseSlot g' l' settled'
  | .error e =>
      apply settles_releaseSlot
      split_ifs
      · exact (List.append_nil g.entries).trans settled
      · exact settled

theorem settles_enterPosition {trigger : EntryTrigger} :
    Settles cfg dryRun (enterPosition cfg dryRun mint trigger) := by
  apply Async.Keeps.bind
  · apply Async.Keeps.bind
    · exact settles_perform rfl
    intro _
    apply Async.Keeps.bind
    · exact settles_assign
    intro _
    split_ifs
    · apply Async.Keeps.bind
      · exact settles_perform rfl
      intro now
      apply Async.Keeps.bind
      · exact settles_perform rfl
      intro allowed
      match allowed with
      | .error spent => exact .pure _
      | .ok () => exact settles_buyInSlot
    · exact settles_buyInSlot
  intro position
  exact settles_assign

theorem settles_gatedEntry {trigger : EntryTrigger} :
    Settles cfg dryRun (gatedEntry cfg dryRun mint now trigger) :=
  gatedEntry_keeps settles_enterPosition

theorem settles_sellForGood {pct : Position → ℚ} {reason : SellReason} :
    Settles cfg dryRun (sellForGood cfg dryRun pct reason) :=
  settles_of_steady (sellForGood_steady (fun o unwinding _ => spends_of_isUnwinding o unwinding)
    (fun _ _ _ _ => trivial) rfl)

theorem settles_onTick : Settles cfg dryRun (onTick cfg dryRun mint u) := by
  apply onTick_keeps
  · exact fun _ _ _ _ settled => settled
  · exact fun _ _ => settles_gatedEntry
  · exact fun _ _ _ _ settled => settled
  · exact fun _ _ => settles_sellForGood
  · intro price
    exact settles_of_steady (pnlExit_steady (fun o unwinding _ => spends_of_isUnwinding o unwinding)
      fun _ _ _ _ => trivial)
  · exact settles_perform rfl

theorem settles_setup (o : Op) (setup : o.isSetup = true) :
    Settles cfg dryRun (Async.perform o) := by
  apply settles_perform
  cases o with
  | spendRecord amountSol => cases setup
  | buy p => cases setup
  | _ => rfl

theorem settles_runSession : Settles cfg dryRun (runSession cfg dryRun mint) := by
  apply runSession_keeps fun o opening => settles_setup o (isSetup_of_isOpening opening)
  · exact fun _ _ _ => trivial
  · exact fun _ => settles_assign
  · exact sessionRound_keeps (settles_perform rfl) fun _ => settles_onTick
  · exact fun _ => settles_sellForGood

theorem settles_sessionTask : Settles cfg dryRun (sessionTask cfg dryRun) :=
  sessionTask_keeps settles_setup (fun _ => settles_runSession) fun _ _ _ _ settled => settled

end Graduation

section Copies

variable {cfg : Market.Config} {dryRun : Bool} {α : Type}

variable (cfg dryRun) in
/-- Pieces of a copy session between which all its attempts are recorded. -/
abbrev CopySettles (m : CopyM α) : Prop :=
  Async.Keeps (ledgerProtocol cfg dryRun (fun _ => true) Ledger.RecordsAttempt)
    (fun g _ => g.attempts = g.records) m

theorem recordsAttempt_of_settled (g : Ledger) (o : Op) (settled : g.attempts = g.records)
    (other : o.spends = false) : g.RecordsAttempt o := by
  cases o with
  | spendRecord amountSol => cases other
  | _ => exact settled

theorem spends_of_isExit (o : Op) (exit : o.isExit = true) : o.spends = false := by
  cases o with
  | buy p => cases exit
  | spendRecord amountSol => cases exit
  | _ => rfl

theorem copySettles_of_steady {m : CopyM α}
    (calm : Async.Steady World (fun o => o.spends = false) (fun _ => True) m) :
    CopySettles cfg dryRun m :=
  keeps_of_steady recordsAttempt_of_settled calm

theorem copySettles_perform {o : Op} (other : o.spends = false) :
    CopySettles cfg dryRun (Async.perform o) :=
  copySettles_of_steady (.perform other)

theorem copySettles_assign {f : CopyLocals → CopyLocals} :
    CopySettles cfg dryRun (Async.assign f) :=
  .assign fun _ _ settled => settled

theorem copySettles_releaseCopySlot : CopySettles cfg dryRun releaseCopySlot := by
  apply Async.Keeps.bind
  · exact copySettles_perform rfl
  intro _
  exact copySettles_assign

theorem copySettles_monitorToExit {boughtAt : Instant} {price : ℚ} :
    CopySettles cfg dryRun (monitorToExit cfg dryRun boughtAt price) := by
  apply Async.Keeps.bind
  · exact copySettles_assign
  intro _
  apply Async.Keeps.bind
  · exact copySettles_perform rfl
  intro _
  apply Async.Keeps.bind
  · apply copySettles_of_steady
    apply Async.Steady.loop
    apply copyRound_steady cfg dryRun spends_of_isExit
    · exact fun _ _ _ _ _ _ => trivial
    · exact fun _ => rfl
    · exact fun _ _ => trivial
  intro _
  apply Async.Keeps.bind
  · exact .locals
  intro l
  split_ifs
  · exact copySettles_releaseCopySlot
  · apply Async.Keeps.bind
    · exact copySettles_of_steady (doSell_steady cfg dryRun spends_of_isExit _ _)
    intro _
    exact copySettles_releaseCopySlot

theorem owing_establish {mint : Pubkey} {buyRes : Except BoxError (Option Signature)} {g : Ledger}
    {l : CopyLocals} (owing : g.attempts = g.records ++ [cfg.copyTrade.tradeAmountSol]) :
    Async.wp (ledgerProtocol cfg dryRun (fun _ => true) Ledger.RecordsAttempt)
      (establish cfg dryRun mint buyRes) (fun g _ _ => g.attempts = g.records) g l := by
  rw [establish, Async.wp_locals_bind]
  apply Async.wp_step
  · trivial
  · exact owing
  intro w total _
  suffices rest : CopySettles cfg dryRun _ from rest _ _ owing
  match buyRes with
  | .ok (some sig) =>
      apply Async.Keeps.bind
      · exact copySettles_perform rfl
      intro boughtAt
      apply Async.Keeps.bind
      · exact copySettles_assign
      intro _
      apply Async.Keeps.bind
      · exact copySettles_of_steady (fetchBalance_steady rfl)
      intro balance
      match balance with
      | .error e =>
          apply Async.Keeps.bind
          · exact copySettles_perform rfl
          intro _
          exact copySettles_releaseCopySlot
      | .ok b =>
          dsimp only
          split_ifs
          · exact copySettles_releaseCopySlot
          · apply Async.Keeps.bind
            · exact copySettles_perform rfl
            intro _
            apply Async.Keeps.bind
            · exact copySettles_perform rfl
            intro _
            exact copySettles_monitorToExit
  | .ok none =>
      apply Async.Keeps.bind
      · exact copySettles_perform rfl
      intro _
      apply Async.Keeps.bind
      · exact copySettles_of_steady (firstPrice_steady rfl)
      intro first
      match first with
      | none => exact copySettles_releaseCopySlot
      | some price =>
          apply Async.Keeps.bind
          · exact copySettles_perform rfl
          intro boughtAt
          exact copySettles_monitorToExit
  | .error e => exact copySettles_releaseCopySlot

theorem copySettles_copyHandle : CopySettles cfg dryRun (copyHandle cfg dryRun) := by
  apply Async.Keeps.bind
  · exact .locals
  intro l
  cases Pubkey.fromStr l.alpha.mint with
  | none => exact .pure _
  | some mint =>
      apply Async.Keeps.bind
      · exact copySettles_perform rfl
      intro now
      apply Async.Keeps.bind
      · exact copySettles_perform rfl
      intro allowed
      match allowed with
      | .error spent => exact .pure _
      | .ok () =>
          apply Async.Keeps.bind
          · exact copySettles_perform rfl
          intro slot
          apply Async.Keeps.bind
          · exact copySettles_assign
          intro _
          split_ifs
          · exact copySettles_releaseCopySlot
          · intro g l' settled
            apply ledger_traderBuy
            · exact settled
            intro buyRes
            apply owing_establish
            exact congrArg (· ++ [cfg.copyTrade.tradeAmountSol]) settled

end Copies

/-! ### Runs -/

section Traces

variable {L : Type} {cfg : Market.Config} {dryRun : Bool} {capped : L → Bool} {i : Nat}
  {tr : Trace World L Op Reply Env}

theorem ledger_self {w : World} {l : L} {o : Op} {r : Reply o} :
    ledger cfg dryRun capped i (tr ++ [(w, .perform i l o r)]) =
      (ledger cfg dryRun capped i tr).next cfg dryRun capped l o r :=
  ghost_perform_self i tr w l o r

theorem ledger_aside {w : World} {e : Label L Op Reply Env}
    (aside : ∀ l o r, e ≠ .perform i l o r) :
    ledger cfg dryRun capped i (tr ++ [(w, e)]) = ledger cfg dryRun capped i tr :=
  ghost_aside aside tr w

theorem ledger_idle {post : Trace World L Op Reply Env}
    (idle : ∀ x ∈ post, ∀ l o r, x.2 ≠ .perform i l o r) :
    ledger cfg dryRun capped i (tr ++ post) = ledger cfg dryRun capped i tr := by
  induction post using List.reverseRecOn with
  | nil => rw [List.append_nil]
  | append_singleton post x ih =>
      rw [← List.append_assoc, ledger_aside (idle x (List.mem_append_right _ List.mem_cons_self))]
      exact ih fun y mem => idle y (List.mem_append_left _ mem)

variable (cfg dryRun i) in
def BuyFailed (tr : Trace World L Op Reply Env) : Prop :=
  ∃ w l p answers, (w, .perform i l (.buy p) answers) ∈ tr ∧ buyOk cfg dryRun p answers = false

theorem buyFailed_append {x : World × Label L Op Reply Env} :
    BuyFailed cfg dryRun i (tr ++ [x]) ↔
      BuyFailed cfg dryRun i tr ∨ BuyFailed cfg dryRun i [x] := by
  simp only [BuyFailed, List.mem_append, or_and_right, exists_or]

variable (cfg dryRun i) in
theorem ledger_step (all : ∀ l, capped l = true) (tr : Trace World L Op Reply Env)
    (x : World × Label L Op Reply Env) :
    (BuyFailed cfg dryRun i [x] ∧
      (ledger cfg dryRun capped i (tr ++ [x])).entries = (ledger cfg dryRun capped i tr).entries ∧
      ∃ amountSol, (ledger cfg dryRun capped i (tr ++ [x])).attempts =
        (ledger cfg dryRun capped i tr).attempts ++ [amountSol]) ∨
    (¬ BuyFailed cfg dryRun i [x] ∧ ∃ new,
      (ledger cfg dryRun capped i (tr ++ [x])).entries =
        (ledger cfg dryRun capped i tr).entries ++ new ∧
      (ledger cfg dryRun capped i (tr ++ [x])).attempts =
        (ledger cfg dryRun capped i tr).attempts ++ new) := by
  obtain ⟨w, e⟩ := x
  by_cases own : ∃ l p answers, e = .perform i l (.buy p) answers
  · obtain ⟨l, p, answers, rfl⟩ := own
    rw [ledger_self, Ledger.next, if_pos (all l), Ledger.bought]
    cases ok : buyOk cfg dryRun p answers with
    | true =>
        refine .inr ⟨?_, [p.amountSol], rfl, rfl⟩
        rintro ⟨_, _, _, _, mem, failed⟩
        cases List.mem_singleton.mp mem
        rw [ok] at failed
        cases failed
    | false =>
        refine .inl ⟨⟨w, l, p, answers, List.mem_singleton.mpr rfl, ok⟩, ?_, p.amountSol, rfl⟩
        exact List.append_nil _
  · have quiet : ¬ BuyFailed cfg dryRun i [(w, e)] := by
      rintro ⟨_, l, p, answers, mem, _⟩
      cases List.mem_singleton.mp mem
      exact own ⟨l, p, answers, rfl⟩
    refine .inr ⟨quiet, [], ?_⟩
    rw [List.append_nil, List.append_nil]
    by_cases performs : ∃ l o r, e = .perform i l o r
    · obtain ⟨l, o, r, rfl⟩ := performs
      rw [ledger_self]
      cases o with
      | buy p => exact absurd ⟨l, p, r, rfl⟩ own
      | _ => exact ⟨rfl, rfl⟩
    · rw [ledger_aside fun l o r same => performs ⟨l, o, r, same⟩]
      exact ⟨rfl, rfl⟩

variable (cfg dryRun i) in
/-- Without such an error the attempts are the entries; otherwise there are more. -/
theorem ledger_attempts (all : ∀ l, capped l = true) (tr : Trace World L Op Reply Env) :
    (BuyFailed cfg dryRun i tr ∧ (ledger cfg dryRun capped i tr).entries.length <
      (ledger cfg dryRun capped i tr).attempts.length) ∨
    (¬ BuyFailed cfg dryRun i tr ∧
      (ledger cfg dryRun capped i tr).entries = (ledger cfg dryRun capped i tr).attempts) := by
  induction tr using List.reverseRecOn with
  | nil =>
      refine .inr ⟨?_, rfl⟩
      rintro ⟨_, _, _, _, mem, _⟩
      cases mem
  | append_singleton tr x ih =>
      rcases ledger_step cfg dryRun i all tr x with
        ⟨failed, entries, a, attempts⟩ | ⟨quiet, new, entries, attempts⟩
      · refine .inl ⟨buyFailed_append.mpr (.inr failed), ?_⟩
        rw [entries, attempts, List.length_append, List.length_singleton]
        rcases ih with ⟨_, fewer⟩ | ⟨_, same⟩
        · omega
        · rw [same]
          omega
      · rw [entries, attempts, buyFailed_append, or_iff_left quiet]
        rcases ih with ⟨before, fewer⟩ | ⟨none_before, same⟩
        · refine .inl ⟨before, ?_⟩
          rw [List.length_append, List.length_append]
          omega
        · exact .inr ⟨none_before, by rw [same]⟩

theorem Ledger.RecordsEntry.next {g : Ledger} {l : L} {o : Op} {r : Reply o}
    (fits : g.RecordsEntry o) : ∃ last : List ℚ, last.length ≤ 1 ∧
      (g.next cfg dryRun capped l o r).entries =
        (g.next cfg dryRun capped l o r).records ++ last := by
  cases o with
  | buy p =>
      have settled : g.entries = g.records := fits
      rw [Ledger.next]
      split_ifs
      · refine ⟨if buyOk cfg dryRun p r then [p.amountSol] else [], ?_, ?_⟩
        · split_ifs <;> simp
        · rw [Ledger.bought, settled]
      · exact ⟨[], Nat.zero_le _, by rw [settled, List.append_nil]⟩
  | spendRecord amountSol =>
      exact ⟨[], Nat.zero_le _, Eq.trans fits (List.append_nil _).symm⟩
  | _ => exact ⟨[], Nat.zero_le _, Eq.trans fits (List.append_nil _).symm⟩

theorem ledger_owed (performed : ∀ pre w l o r post, tr = pre ++ (w, .perform i l o r) :: post →
      (ledger cfg dryRun capped i pre).RecordsEntry o) :
    ∃ last : List ℚ, last.length ≤ 1 ∧ (ledger cfg dryRun capped i tr).entries =
      (ledger cfg dryRun capped i tr).records ++ last := by
  induction tr using List.reverseRecOn with
  | nil => exact ⟨[], Nat.zero_le _, rfl⟩
  | append_singleton tr x ih =>
      obtain ⟨w, e⟩ := x
      by_cases performs : ∃ l o r, e = .perform i l o r
      · obtain ⟨l, o, r, rfl⟩ := performs
        rw [ledger_self]
        exact (performed tr w l o r [] rfl).next
      · rw [ledger_aside fun l o r same => performs ⟨l, o, r, same⟩]
        apply ih
        intro pre v l o r post split
        exact performed pre v l o r (post ++ [(w, e)]) (by rw [split, List.append_assoc]; rfl)

end Traces

section Tracker

variable {L : Type} {M : System World L Op Reply Env} {cap amount : ℚ}
  {c₀ c c' : Interaction.Config World L Op Reply} {tr : Trace World L Op Reply Env}
  {e : Label L Op Reply Env}

/-- A step keeps the spends of the tracker, up to those older than 24 hours, and adds at most the
amount that it records. -/
def TrackerMoves (w : World) (e : Label L Op Reply Env) (w' : World) : Prop :=
  ∃ old, (∀ x ∈ old, day < w.clock - x.1) ∧
    w.tracker.spends ++ ((recordAmount e).map fun amountSol => (w.clock, amountSol)).toList =
      old ++ w'.tracker.spends

theorem TrackerMoves.other {w w' : World} (same : w'.tracker = w.tracker)
    (none : recordAmount e = none) : TrackerMoves w e w' := by
  refine ⟨[], nofun, ?_⟩
  rw [same, none]
  exact List.append_nil _

theorem tracker_moves (spends : Spends M c₀ cap amount) (run : Run M always c₀ tr c)
    (moved : Step M c e c') : TrackerMoves c.shared e c'.shared := by
  have window := (books_kept spends run).window
  cases moved with
  | unroll pending => exact .other rfl rfl
  | env granted => exact .other (spends.env granted).2 rfl
  | @perform i l o resume r s' pending granted =>
      have granted := spends.exec granted
      cases own : o.shared with
      | false =>
          refine .other (World.perform_sameCommon granted own).tracker ?_
          cases o with
          | spendRecord amountSol => cases own
          | _ => rfl
      | true =>
          cases o with
          | fetchAdd =>
              obtain ⟨_, rfl⟩ := World.perform_fetchAdd.mp granted
              exact .other rfl rfl
          | fetchSub =>
              obtain ⟨_, rfl⟩ := World.perform_fetchSub.mp granted
              exact .other rfl rfl
          | spendCheck now amountSol =>
              obtain ⟨_, rfl⟩ := World.perform_spendCheck.mp granted
              have past := (spends.check run pending).2
              have evicted : (c.shared.tracker.check now amountSol).1 =
                  c.shared.tracker.evict now := by
                simp only [DailySpendTracker.check]
                split_ifs <;> rfl
              obtain ⟨old, split, older⟩ :=
                evictOld_split c.shared.tracker.window now c.shared.tracker.spends
              refine ⟨old, ?_, ?_⟩
              · intro x mem
                rw [← window]
                exact (older x mem).trans_le (Nat.sub_le_sub_right past x.1)
              · rw [evicted]
                exact (List.append_nil _).trans split
          | spendRecord amountSol =>
              obtain ⟨_, rfl⟩ := World.perform_spendRecord.mp granted
              obtain ⟨old, split, older⟩ :=
                evictOld_split c.shared.tracker.window c.shared.clock c.shared.tracker.spends
              obtain ⟨old', split', older'⟩ :=
                evictOld_split c.shared.tracker.window c.shared.clock
                  (c.shared.tracker.record c.shared.clock amountSol).spends
              refine ⟨old ++ old', ?_, ?_⟩
              · intro x mem
                rw [← window]
                rcases List.mem_append.mp mem with first | second
                · exact older x first
                · exact older' x second
              · rw [split, List.append_assoc, List.append_assoc]
                exact congrArg (old ++ ·) split'
          | _ => cases own

theorem total_eq (spends : Spends M c₀ cap amount) (run : Run M always c₀ tr c) :
    (c.shared.tracker.total24h c.shared.clock).2 =
      spentWithin day (spendLog tr) c.shared.clock := by
  have books := books_kept spends run
  rw [← books.window]
  exact books.holds.total_evict

end Tracker

section Modes

variable {L : Type} (M : System World L Op Reply Env) (cfg : Market.Config) (dryRun : Bool)
  (capped : L → Bool)

/-- Failed buys do not consume the daily cap, as of one state of a run. -/
structure OnlyEntriesSpend (tr : Trace World L Op Reply Env)
    (c : Interaction.Config World L Op Reply) : Prop where
  /-- A session records an amount exactly when it has just entered for it. -/
  performed : ∀ pre w i l o r post, tr = pre ++ (w, .perform i l o r) :: post →
    (ledger cfg dryRun capped i pre).RecordsEntry o
  returned : ∀ (i : Nat) t, c.tasks[i]? = some t → t.finished = true →
    (ledger cfg dryRun capped i tr).entries = (ledger cfg dryRun capped i tr).records
  /-- All its entries are recorded, but for the last. -/
  owed : ∀ i, ∃ last : List ℚ, last.length ≤ 1 ∧ (ledger cfg dryRun capped i tr).entries =
    (ledger cfg dryRun capped i tr).records ++ last
  moves : ∀ e c', Step M c e c' → TrackerMoves c.shared e c'.shared
  total : (c.shared.tracker.total24h c.shared.clock).2 =
    spentWithin day (spendLog tr) c.shared.clock

end Modes

section GraduationRuns

variable {cfg : Market.Config} {dryRun : Bool} {start : Instant} {tr : GradTrace} {c : GradConfig}

theorem session_settles (run : GradRun cfg dryRun start always tr c) :
    ∀ i t, c.tasks[i]? = some t →
      Proc.wp (ledgerProtocol cfg dryRun dipBuys Ledger.RecordsEntry) t
        (fun g _ _ => g.entries = g.records) (ledger cfg dryRun dipBuys i tr) := by
  refine graduation_protocol (ledgerProtocol cfg dryRun dipBuys Ledger.RecordsEntry)
    (fun g _ _ => g.entries = g.records) {} ?_ ?_ run
  · exact fun ev now => settles_sessionTask _ _ rfl
  · intros
    trivial

theorem graduation_only_entries_spend (run : GradRun cfg dryRun start always tr c) :
    OnlyEntriesSpend (graduation cfg dryRun) cfg dryRun dipBuys tr c := by
  have performed : ∀ pre w i l o r post, tr = pre ++ (w, .perform i l o r) :: post →
      (ledger cfg dryRun dipBuys i pre).RecordsEntry o := by
    intro pre w i l o r post split
    obtain ⟨c₁, c₂, before, _, _, moved⟩ := run.upto pre w _ post split
    cases moved with
    | perform pending granted => exact (session_settles before i _ pending).2.1
  constructor
  case performed => exact performed
  case returned =>
    intro i t here done
    obtain ⟨_, settled⟩ := Proc.returned_of_finished (session_settles run i t here) done
    exact settled
  case owed => exact fun i => ledger_owed fun pre w l o r post => performed pre w i l o r post
  case moves => exact fun e c' => tracker_moves (graduation_spends cfg dryRun start) run
  case total => exact total_eq (graduation_spends cfg dryRun start) run

end GraduationRuns

section CopyRuns

variable {cfg : Market.Config} {dryRun : Bool} {start : Instant} {tr : CopyTrace} {c : CopyConfig}

theorem copy_settles (run : CopyRun cfg dryRun start always tr c) :
    ∀ i t, c.tasks[i]? = some t →
      Proc.wp (ledgerProtocol cfg dryRun (fun _ => true) Ledger.RecordsAttempt) t
        (fun g _ _ => g.attempts = g.records) (ledger cfg dryRun (fun _ => true) i tr) := by
  refine copy_protocol (ledgerProtocol cfg dryRun (fun _ => true) Ledger.RecordsAttempt)
    (fun g _ _ => g.attempts = g.records) {} ?_ ?_ run
  · exact fun alpha => copySettles_copyHandle _ _ rfl
  · intros
    trivial

variable (cfg dryRun) in
/-- No copy session went on after `trader::buy` had returned an error to it. -/
def NoneWentOn (tr : CopyTrace) : Prop :=
  ∀ pre w i l o r post, tr = pre ++ (w, .perform i l o r) :: post → ¬ BuyFailed cfg dryRun i pre

theorem copy_recordsAttempt (run : CopyRun cfg dryRun start always tr c) {pre post : CopyTrace}
    {w : World} {i : Nat} {l : CopyLocals} {o : Op} {r : Reply o}
    (split : tr = pre ++ (w, .perform i l o r) :: post) :
    (ledger cfg dryRun (fun _ => true) i pre).RecordsAttempt o := by
  obtain ⟨c₁, c₂, before, _, _, moved⟩ := run.upto pre w _ post split
  cases moved with
  | perform pending granted => exact (copy_settles before i _ pending).2.1

theorem not_buyFailed_of_returned (run : CopyRun cfg dryRun start always tr c)
    (stopped : NoneWentOn cfg dryRun tr) {i : Nat} {t : TaskProc CopyLocals}
    (here : c.tasks[i]? = some t) (done : t.finished = true) : ¬ BuyFailed cfg dryRun i tr := by
  rintro ⟨w, l, p, answers, mem, failed⟩
  obtain ⟨pre, post, split⟩ := List.append_of_mem mem
  obtain ⟨_, settled⟩ := Proc.returned_of_finished (copy_settles run i t here) done
  have before : (ledger cfg dryRun (fun _ => true) i pre).attempts =
      (ledger cfg dryRun (fun _ => true) i pre).records := copy_recordsAttempt run split
  -- nothing that session `i` did after the buy could have recorded it
  have idle : ∀ x ∈ post, ∀ l o r, x.2 ≠ .perform i l o r := by
    rintro ⟨v, e⟩ later l' o r rfl
    obtain ⟨mid, rest, split'⟩ := List.append_of_mem later
    refine stopped (pre ++ (w, .perform i l (.buy p) answers) :: mid) v i l' o r rest ?_ ?_
    · rw [split, split', List.append_assoc, List.cons_append]
    · exact ⟨w, l, p, answers, List.mem_append_right _ List.mem_cons_self, failed⟩
  rw [split, ← List.singleton_append, ← List.append_assoc, ledger_idle idle, ledger_self,
    Ledger.next, if_pos rfl] at settled
  have grown : (ledger cfg dryRun (fun _ => true) i pre).attempts ++ [p.amountSol] =
      (ledger cfg dryRun (fun _ => true) i pre).records := settled
  rw [before] at grown
  simp at grown

end CopyRuns

/-- In graduation mode failed buys never consume the cap. In copy mode they do exactly when a
session goes on after one: the next thing that it does is to record it. -/
theorem only_entries_spend_iff (cfg : Market.Config) (dryRun : Bool) (start : Instant) :
    (∀ tr c, GradRun cfg dryRun start always tr c →
      OnlyEntriesSpend (graduation cfg dryRun) cfg dryRun dipBuys tr c) ∧
    (∀ tr c, CopyRun cfg dryRun start always tr c →
      (OnlyEntriesSpend (copyMode cfg dryRun) cfg dryRun (fun _ => true) tr c ↔
        NoneWentOn cfg dryRun tr)) := by
  constructor
  · intro tr c run
    exact graduation_only_entries_spend run
  intro tr c run
  constructor
  · intro honest pre w i l o r post split failed
    have entry := honest.performed pre w i l o r post split
    have attempt := copy_recordsAttempt run split
    rcases ledger_attempts cfg dryRun i (fun _ => rfl) pre with
      ⟨_, fewer⟩ | ⟨quiet, _⟩
    · rw [Ledger.RecordsEntry.entries_eq entry attempt] at fewer
      exact absurd fewer (lt_irrefl _)
    · exact quiet failed
  · intro stopped
    have performed : ∀ pre w i l o r post, tr = pre ++ (w, .perform i l o r) :: post →
        (ledger cfg dryRun (fun _ => true) i pre).RecordsEntry o := by
      intro pre w i l o r post split
      have attempt := copy_recordsAttempt run split
      rcases ledger_attempts cfg dryRun i (fun _ => rfl) pre with
        ⟨failed, _⟩ | ⟨_, same⟩
      · exact absurd failed (stopped pre w i l o r post split)
      · exact attempt.recordsEntry same
    constructor
    case performed => exact performed
    case returned =>
      intro i t here done
      obtain ⟨_, settled⟩ := Proc.returned_of_finished (copy_settles run i t here) done
      rcases ledger_attempts cfg dryRun i (fun _ => rfl) tr with
        ⟨failed, _⟩ | ⟨_, same⟩
      · exact absurd failed (not_buyFailed_of_returned run stopped here done)
      · exact same.trans settled
    case owed => exact fun i => ledger_owed fun pre w l o r post => performed pre w i l o r post
    case moves => exact fun e c' => tracker_moves (copy_spends cfg dryRun start) run
    case total => exact total_eq (copy_spends cfg dryRun start) run

theorem only_entries_spend_one_buy :
    (∃ (tr : GradTrace) (c : GradConfig), spendLog tr = [(0, 1)] ∧
      OnlyEntriesSpend (graduation eager false) eager false dipBuys tr c) ∧
    (∃ (tr : CopyTrace) (c : CopyConfig), spendLog tr = [(0, 1 / 10)] ∧
      (OnlyEntriesSpend (copyMode eager false) eager false (fun _ => true) tr c ↔
        NoneWentOn eager false tr)) := by
  obtain ⟨tr, c, run, spent⟩ := System.script_reaches (graduation eager false)
    (graduationStart eager 0) (warmUp 0 ++ buyTick readyNet 0 9)
    (fun tr _ => spendLog tr = [(0, 1)]) (by decide +kernel)
  obtain ⟨tr', c', run', spent'⟩ := System.script_reaches (copyMode eager false)
    (copyStart eager 0) (copyEntry 0 "A") (fun tr _ => spendLog tr = [(0, 1 / 10)])
    (by decide +kernel)
  obtain ⟨graduation, copy⟩ := only_entries_spend_iff eager false 0
  exact ⟨⟨tr, c, of_decide_eq_true spent, graduation tr c run⟩,
    tr', c', of_decide_eq_true spent', copy tr' c' run'⟩

def mutedNet : Network :=
  { readyNet with buy := fun _ => { prompt with tradeLocal := .transport "" } }

/-- The only buy of a copy session fails and is recorded all the same. -/
theorem failed_copy_spends : ¬ ∀ (cfg : Market.Config) (dryRun : Bool) (start : Instant),
    (∀ tr c, GradRun cfg dryRun start always tr c →
      OnlyEntriesSpend (graduation cfg dryRun) cfg dryRun dipBuys tr c) ∧
    (∀ tr c, CopyRun cfg dryRun start always tr c →
      OnlyEntriesSpend (copyMode cfg dryRun) cfg dryRun (fun _ => true) tr c) := by
  intro claimed
  obtain ⟨tr, c, run, reached⟩ := System.script_reaches (copyMode eager false)
    (copyStart eager 0)
    ([.env (.frame (alphaTrade someMint "A" "buy") 0)] ++ go mutedNet 0 5)
    (fun tr _ => ledger eager false (fun _ => true) 0 tr = ⟨[1 / 10], [], [1 / 10]⟩)
    (by decide +kernel)
  obtain ⟨last, _, entries⟩ := ((claimed eager false 0).2 tr c run).owed 0
  rw [of_decide_eq_true reached] at entries
  cases entries

end HadesPsTrader.Tasks
