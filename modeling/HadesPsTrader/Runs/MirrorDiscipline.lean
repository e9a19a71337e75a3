/- Module: HadesPsTrader/Runs/MirrorDiscipline
   source: src/copy_session.rs
   digest: What a copy session owes after each frame of its mirror feed. -/

import HadesPsTrader.Runs.CopyPieces
import HadesPsTrader.Tasks.World

set_option autoImplicit false
set_option relaxedAutoImplicit false

namespace HadesPsTrader.Tasks

open HadesPsTrader.Market HadesPsTrader.Chain HadesPsTrader.Interaction

/-- A sell of the followed wallet in the copied mint by which it has closed. -/
def ClosesEntry (cfg : Market.Config) (l : CopyLocals) (sell : AlphaTrade) : Prop :=
  (sell.txType = "sell" ∧ sell.mint = l.alpha.mint ∧ sell.trader = l.alpha.trader) ∧
    Copy.alphaClosed l.alpha.tokenBalance sell.tokenBalance cfg.copyTrade.mirrorCloseFraction
      cfg.copyTrade.mirrorExitOnFirstSell = true

instance (cfg : Market.Config) (l : CopyLocals) (sell : AlphaTrade) :
    Decidable (ClosesEntry cfg l sell) :=
  inferInstanceAs (Decidable (_ ∧ _))

/-- The operation by which a copy session goes back to waiting. -/
def Op.waits : Op → Bool
  | .copySelect _ => true
  | _ => false

/-- What a copy session owes: nothing, another wait, the call of `do_sell` for the mirror exit, the
sell of the mint itself, or not to wait again. -/
inductive MirrorDuty
  | free
  | again
  | call (mint : String)
  | sell (mint : String)
  | done
  deriving DecidableEq

namespace MirrorDuty

def next (cfg : Market.Config) (g : MirrorDuty) (l : CopyLocals) : (o : Op) → Reply o → MirrorDuty
  | .copySelect _, .mirror (.got t) =>
      if ClosesEntry cfg l t then .call l.alpha.mint else .again
  | .copySelect _, _ => .free
  | .call _, _ => match g with
    | .call mint => .sell mint
    | g => g
  | .sellAll _, _ => match g with
    | .sell _ => .done
    | g => g
  | _, _ => g

/-- The operations that the duty leaves. Whoever waits keeps the mirror branch enabled. -/
def permits (g : MirrorDuty) (o : Op) : Prop :=
  match g with
  | .free => ∀ mirrorOpen, o = .copySelect mirrorOpen → mirrorOpen = true
  | .again => o = .copySelect true
  | .call _ => o = .call (.doSell .mirrorAlphaClosed)
  | .sell mint => ∃ p, o = .sellAll p ∧ p.mint = mint
  | .done => o.waits = false

/-- No frame is outstanding. -/
def settled (g : MirrorDuty) : Prop := g = .free ∨ g = .done

end MirrorDuty

/-- The senders of the mirror feed are not dropped. -/
def FeedOpen : (o : Op) → Reply o → Prop
  | .copySelect _, event => event ≠ .mirror .closed
  | _, _ => True

def mirrorProtocol (cfg : Market.Config) : Protocol MirrorDuty World CopyLocals Op Reply where
  coherent _ _ := True
  guard g _ o := g.permits o
  valid _ _ _ o r := FeedOpen o r
  next g _ l o r := g.next cfg l o r

section Discipline

variable {cfg : Market.Config} {dryRun : Bool} {α : Type} {g : MirrorDuty} {l : CopyLocals}
  {I : CopyLocals → Prop}

theorem waitless_of_isExit (o : Op) (exit : o.isExit = true) : o.waits = false := by
  cases o with
  | copySelect mirrorOpen => cases exit
  | _ => rfl

theorem settled_idle (settled : g.settled) {o : Op} {r : Reply o} (waitless : o.waits = false) :
    g.next cfg l o r = g := by
  cases o with
  | copySelect mirrorOpen => cases waitless
  | call c => rcases settled with rfl | rfl <;> rfl
  | sellAll p => rcases settled with rfl | rfl <;> rfl
  | _ => rfl

theorem settled_permits (settled : g.settled) {o : Op} (waitless : o.waits = false) :
    g.permits o := by
  rcases settled with rfl | rfl
  · rintro mirrorOpen rfl
    cases waitless
  · exact waitless

theorem duty_steady {m : CopyM α} {Q : MirrorDuty → CopyLocals → α → Prop} (settled : g.settled)
    (calm : Async.Steady World (fun o => o.waits = false) I m) (inside : I l)
    (done : ∀ l a, I l → Q g l a) : Async.wp (mirrorProtocol cfg) m Q g l := by
  apply calm.wp inside
  · intro l _
    trivial
  · intro l o _ waitless
    exact settled_permits settled waitless
  · intro s l o r waitless
    exact settled_idle settled waitless
  · exact done

theorem duty_step {o : Op} {f : Reply o → CopyM α} {Q : MirrorDuty → CopyLocals → α → Prop}
    (settled : g.settled) (waitless : o.waits = false)
    (rest : ∀ r, Async.wp (mirrorProtocol cfg) (f r) Q g l) :
    Async.wp (mirrorProtocol cfg) (Async.perform o >>= f) Q g l := by
  apply Async.wp_step
  · trivial
  · exact settled_permits settled waitless
  intro w r _
  have idle : (mirrorProtocol cfg).next g w l o r = g := settled_idle settled waitless
  rw [idle]
  exact rest r

theorem releaseCopySlot_steady :
    Async.Steady World (fun o => o.waits = false) (fun _ => True) releaseCopySlot := by
  apply Async.Steady.bind
  · exact .perform rfl
  intro _
  apply Async.Steady.assign
  intro l _
  trivial

def RoundEnded (g : MirrorDuty) (l : CopyLocals) : Option Unit → Prop
  | none => (g = .free ∨ g = .again) ∧ l.mirrorOpen = true
  | some () => g.settled

theorem RoundEnded.of_free {x : Option Unit} (opened : l.mirrorOpen = true) :
    RoundEnded .free l x := by
  cases x with
  | none => exact ⟨.inl rfl, opened⟩
  | some u => exact .inl rfl

theorem duty_traderSellAll {p : SellAllParams}
    {f : Except BoxError (Option Signature) → CopyM α} {Q : MirrorDuty → CopyLocals → α → Prop}
    (mint : p.mint = l.alpha.mint) (rest : ∀ res, Async.wp (mirrorProtocol cfg) (f res) Q .done l) :
    Async.wp (mirrorProtocol cfg) (traderSellAll cfg dryRun p >>= f) Q (.sell l.alpha.mint) l := by
  rw [traderSellAll]
  refine Async.wp_bind.mpr (Async.wp_step trivial ⟨p, rfl, mint⟩ ?_)
  intro w answers _
  exact rest _

theorem duty_mirrorExit {pct : ℚ} :
    Async.wp (mirrorProtocol cfg) (sellAndLeave cfg dryRun pct .mirrorAlphaClosed) RoundEnded
      (.call l.alpha.mint) l := by
  have done : MirrorDuty.settled .done := .inr rfl
  have left (l : CopyLocals) : Async.wp (mirrorProtocol cfg) (do
      Async.assign fun l => { l with sold := true }
      pure (some ())) RoundEnded .done l := done
  rw [sellAndLeave, doSell, Async.wp_bind]
  apply Async.wp_step
  · trivial
  · exact rfl
  intro w _ _
  rw [Async.wp_locals_bind]
  apply duty_traderSellAll rfl
  intro res
  match res with
  | .ok (some sig) =>
      refine duty_steady (I := fun _ => True) done ?_ trivial fun l' _ _ => left l'
      apply Async.Steady.bind
      · exact .perform rfl
      intro _
      apply Async.Steady.bind
      · exact .perform rfl
      intro _
      exact .pure _
  | .ok none => exact left l
  | .error e => exact left l

theorem duty_copyRound (ready : g = .free ∨ g = .again) (opened : l.mirrorOpen = true) :
    Async.wp (mirrorProtocol cfg) (copyRound cfg dryRun) RoundEnded g l := by
  have free : MirrorDuty.settled .free := .inl rfl
  have notes (l : CopyLocals) (rugGuard : RugGuard) (peakPct : ℚ) (lastPrice : Option ℚ)
      (sold : Bool) (opened : l.mirrorOpen = true) :
      (l.noted rugGuard peakPct lastPrice sold).mirrorOpen = true := opened
  have leave (pct : ℚ) (reason : SellReason) : Async.wp (mirrorProtocol cfg)
      (sellAndLeave cfg dryRun pct reason) RoundEnded .free l :=
    duty_steady free (sellAndLeave_steady cfg dryRun waitless_of_isExit notes pct reason) opened
      fun _ _ opened => .of_free opened
  have waits : RoundEnded .free l none := .of_free opened
  rw [copyRound, Async.wp_locals_bind]
  apply Async.wp_step
  · trivial
  · rcases ready with rfl | rfl
    · intro mirrorOpen waits
      cases waits
      exact opened
    · exact congrArg Op.copySelect opened
  intro w event still
  match event with
  | .deadline => exact leave _ _
  | .shutdown (.got ()) => exact leave _ _
  | .shutdown .closed => exact leave _ _
  | .shutdown (.lagged _) => exact waits
  | .mirror (.got sell) =>
      dsimp only
      rw [onMirror, Async.wp_locals_bind]
      have owed : (mirrorProtocol cfg).next g w l (.copySelect l.mirrorOpen) (.mirror (.got sell)) =
          if ClosesEntry cfg l sell then .call l.alpha.mint else .again := rfl
      rw [owed]
      by_cases closes : ClosesEntry cfg l sell
      · rw [if_pos closes]
        unfold ClosesEntry at closes
        dsimp only
        rw [if_pos closes]
        exact duty_mirrorExit
      · rw [if_neg closes]
        unfold ClosesEntry at closes
        dsimp only
        rw [if_neg closes]
        exact ⟨.inr rfl, opened⟩
  | .mirror (.lagged n) => exact waits
  | .mirror .closed => exact absurd rfl still
  | .tick none => exact free
  | .tick (some sample) =>
      exact duty_steady free
        (onCopyTick_steady cfg dryRun waitless_of_isExit notes sample.update) opened
        fun _ _ opened => .of_free opened

theorem duty_monitorToExit {boughtAt : Instant} {price : ℚ}
    (mirror : cfg.copyTrade.mirrorExit = true) :
    Async.wp (mirrorProtocol cfg) (monitorToExit cfg dryRun boughtAt price)
      (fun g _ _ => g.settled) .free l := by
  have free : MirrorDuty.settled .free := .inl rfl
  rw [monitorToExit, Async.wp_assign_bind, Async.wp_bind]
  apply duty_steady free (I := fun l => l.mirrorOpen = true)
    (.perform rfl) (by exact mirror)
  intro l₁ _ opened
  rw [Async.wp_bind]
  apply Async.wp_loop (fun g l => (g = .free ∨ g = .again) ∧ l.mirrorOpen = true)
  · exact ⟨.inl rfl, opened⟩
  · intro g l _
    trivial
  rintro g l ⟨ready, opened⟩
  refine Async.wp_mono _ (duty_copyRound ready opened) ?_
  intro g' l' x ended
  cases x with
  | none => exact ended
  | some u =>
      have settled : g'.settled := ended
      rw [Async.wp_locals_bind]
      split_ifs
      · exact duty_steady settled releaseCopySlot_steady trivial fun _ _ _ => settled
      · rw [Async.wp_bind]
        apply duty_steady settled (I := fun _ => True)
          (doSell_steady cfg dryRun waitless_of_isExit _ _) trivial
        intro l₂ _ _
        exact duty_steady settled releaseCopySlot_steady trivial fun _ _ _ => settled

theorem duty_establish {mint : Pubkey} {buyRes : Except BoxError (Option Signature)}
    (mirror : cfg.copyTrade.mirrorExit = true) :
    Async.wp (mirrorProtocol cfg) (establish cfg dryRun mint buyRes) (fun g _ _ => g.settled)
      .free l := by
  have free : MirrorDuty.settled .free := .inl rfl
  have release (l : CopyLocals) : Async.wp (mirrorProtocol cfg) releaseCopySlot
      (fun g _ _ => g.settled) .free l :=
    duty_steady free releaseCopySlot_steady trivial fun _ _ _ => free
  rw [establish, Async.wp_locals_bind]
  apply duty_step free rfl
  intro _
  match buyRes with
  | .ok (some sig) =>
      apply duty_step free rfl
      intro boughtAt
      rw [Async.wp_assign_bind, Async.wp_bind]
      apply duty_steady free (I := fun _ => True) (fetchBalance_steady rfl) trivial
      intro l₁ balance _
      match balance with
      | .error e =>
          apply duty_step free rfl
          intro _
          exact release l₁
      | .ok b =>
          dsimp only
          split_ifs
          · exact release l₁
          · apply duty_step free rfl
            intro _
            apply duty_step free rfl
            intro _
            exact duty_monitorToExit mirror
  | .ok none =>
      apply duty_step free rfl
      intro _
      rw [Async.wp_bind]
      apply duty_steady free (I := fun _ => True) (firstPrice_steady rfl) trivial
      intro l₁ first _
      match first with
      | none => exact release l₁
      | some price =>
          apply duty_step free rfl
          intro boughtAt
          exact duty_monitorToExit mirror
  | .error e => exact release l

theorem duty_copyHandle (alpha : AlphaTrade) (mirror : cfg.copyTrade.mirrorExit = true) :
    Async.wp (mirrorProtocol cfg) (copyHandle cfg dryRun) (fun g _ _ => g.settled) .free
      { alpha := alpha } := by
  have free : MirrorDuty.settled .free := .inl rfl
  rw [copyHandle, Async.wp_locals_bind]
  dsimp only
  cases Pubkey.fromStr alpha.mint with
  | none => exact free
  | some mint =>
      apply duty_step free rfl
      intro now
      apply duty_step free rfl
      intro allowed
      match allowed with
      | .error spent => exact free
      | .ok () =>
          apply duty_step free rfl
          intro slot
          rw [Async.wp_assign_bind]
          split_ifs
          · exact duty_steady free releaseCopySlot_steady trivial fun _ _ _ => free
          · rw [Async.wp_bind]
            apply duty_steady free (I := fun _ => True)
              (traderBuy_steady rfl) trivial
            intro l₁ buyRes _
            exact duty_establish mirror

end Discipline

end HadesPsTrader.Tasks
