/- Module: HadesPsTrader/Runs/DryRun
   source: src/session.rs, src/copy_session.rs, src/trader.rs, src/main.rs
   digest: Nothing of a dry run leaves the bot. -/

import HadesPsTrader.Chain.BuyLandings
import HadesPsTrader.Chain.SellLandings
import HadesPsTrader.Runs.CopyMode
import HadesPsTrader.Runs.CopyWalk
import HadesPsTrader.Runs.Graduation
import HadesPsTrader.Runs.SessionWalk

set_option autoImplicit false
set_option relaxedAutoImplicit false

namespace HadesPsTrader.Tasks

open HadesPsTrader.Market HadesPsTrader.Chain HadesPsTrader.Interaction

/-- What the trade calls of a task put on the wire. -/
def wireOf (cfg : Market.Config) (dryRun : Bool) : (o : Op) → Reply o → List Wire
  | .buy p, answers => (Chain.buy (jitoSettings cfg) p dryRun answers).wire
  | .sellAll p, answers => (Chain.sellAll (jitoSettings cfg) p dryRun answers).wire
  | _, _ => []

def Op.telling : Op → Bool
  | .fetchTokenBalance _ => true
  | .fetchSolBalance => true
  | .notify _ => true
  | _ => false

def Op.holding : Op → Bool
  | .call (.trySell _) => true
  | .call (.doSell _) => true
  | .now .boughtAt => true
  | .now .exitAge => true
  | .now .soldAt => true
  | .sellAll _ => true
  | _ => false

theorem wireOf_dry (cfg : Market.Config) (o : Op) (r : Reply o) : wireOf cfg true o r = [] := by
  cases o with
  | buy p => exact congrArg Net.wire (buy_dry _ p r)
  | sellAll p => exact congrArg Net.wire (sellAll_dry _ p r)
  | _ => rfl

section Sessions

variable {cfg : Market.Config} {mint : Pubkey} {α β : Type}

def Op.looksOn (o : Op) : Prop := o.telling = false ∧ o.holding = false

/-- The discipline of a session without a position that only looks. -/
def looking : Protocol Unit World SessionLocals Op Reply :=
  steady World Op.looksOn fun l => l.position = none

abbrev Looks (m : SessionM α) : Prop := Async.Keeps looking (fun _ l => l.position = none) m

def LooksIn (m : SessionM (Option β)) : Prop :=
  ∀ g l, l.position = none → Async.wp looking m (fun _ l x => l.position = none ∧ x = none) g l

theorem looks_perform {o : Op} (looksOn : o.looksOn) : Looks (Async.perform o) := by
  apply Async.Keeps.perform
  · exact fun _ _ empty => empty
  · exact fun _ _ _ => looksOn
  · exact fun _ _ _ _ empty _ => empty

theorem looks_assign {u : SessionLocals → SessionLocals} (same : ∀ l, (u l).position = l.position) :
    Looks (Async.assign u) :=
  .assign fun _ l empty => (same l).trans empty

theorem LooksIn.bind {m : SessionM α} {f : α → SessionM (Option β)} (first : Looks m)
    (rest : ∀ a, LooksIn (f a)) : LooksIn (m >>= f) := by
  intro g l empty
  rw [Async.wp_bind]
  refine Async.wp_mono m (first g l empty) ?_
  exact fun g' l' a empty' => rest a g' l' empty'

theorem LooksIn.none : LooksIn (pure (Option.none : Option β)) := fun _ _ empty => ⟨empty, rfl⟩

theorem releaseSlot_looks : LooksIn releaseSlot := by
  apply LooksIn.bind
  · exact looks_perform ⟨rfl, rfl⟩
  intro _
  exact .none

theorem recordDipBuy_looks {trigger : EntryTrigger} : Looks (recordDipBuy cfg trigger) := by
  unfold recordDipBuy
  split_ifs
  · apply Async.Keeps.bind
    · exact looks_perform ⟨rfl, rfl⟩
    intro _
    exact .pure _
  · exact .pure _

theorem traderBuy_looks {p : BuyParams} : ∀ g l, l.position = none →
    Async.wp looking (traderBuy cfg true p) (fun _ l res => l.position = none ∧ res = .ok none)
      g l := by
  intro g l empty
  apply Async.wp_step
  · exact empty
  · exact ⟨rfl, rfl⟩
  intro w answers _
  exact ⟨empty, congrArg Net.result (buy_dry _ p answers)⟩

theorem buyInSlot_looks {trigger : EntryTrigger} : LooksIn (buyInSlot cfg true mint trigger) := by
  apply LooksIn.bind
  · exact .locals
  intro l
  apply LooksIn.bind
  · exact looks_perform ⟨rfl, rfl⟩
  intro slot
  apply LooksIn.bind
  · exact looks_assign fun _ => rfl
  intro _
  split_ifs
  · exact releaseSlot_looks
  intro g l' empty
  refine Async.wp_bind.mpr (Async.wp_mono _ (traderBuy_looks g l' empty) ?_)
  rintro g' l'' res ⟨empty', rfl⟩
  have unsent : LooksIn (recordDipBuy cfg trigger >>= fun _ => releaseSlot) :=
    .bind recordDipBuy_looks fun _ => releaseSlot_looks
  exact unsent g' l'' empty'

theorem tryBuy_looks {trigger : EntryTrigger} : LooksIn (tryBuy cfg true mint trigger) := by
  apply LooksIn.bind
  · exact looks_perform ⟨rfl, rfl⟩
  intro _
  apply LooksIn.bind
  · exact looks_assign fun _ => rfl
  intro _
  split_ifs
  · apply LooksIn.bind
    · exact looks_perform ⟨rfl, rfl⟩
    intro now
    apply LooksIn.bind
    · exact looks_perform ⟨rfl, rfl⟩
    intro allowed
    cases allowed with
    | error spent => exact .none
    | ok _ => exact buyInSlot_looks
  · exact buyInSlot_looks

theorem enterPosition_looks {trigger : EntryTrigger} :
    Looks (enterPosition cfg true mint trigger) := by
  intro g l empty
  rw [enterPosition, Async.wp_bind]
  refine Async.wp_mono _ (tryBuy_looks g l empty) ?_
  rintro g' l' position ⟨_, rfl⟩
  rfl

theorem sellForGood_looks {pct : Position → ℚ} {reason : SellReason} :
    Looks (sellForGood cfg true pct reason) := by
  intro g l empty
  rw [sellForGood, Async.wp_locals_bind, empty]
  exact empty

theorem pnlExit_looks {price : ℚ} : Looks (pnlExit cfg true price) := by
  intro g l empty
  rw [pnlExit, Async.wp_locals_bind, empty]
  exact empty

theorem onTick_looks {u : PriceUpdate} : Looks (onTick cfg true mint u) := by
  apply onTick_keeps
  · intro g l l' same empty
    exact same.1.trans empty
  · intro now trigger
    exact gatedEntry_keeps enterPosition_looks
  · exact fun _ _ _ _ empty => empty
  · exact fun _ _ => sellForGood_looks
  · exact fun _ => pnlExit_looks
  · exact looks_perform ⟨rfl, rfl⟩

theorem runSession_looks : Looks (runSession cfg true mint) := by
  apply runSession_keeps
  · intro o setup
    apply looks_perform
    cases o with
    | now site => cases site <;> first | exact ⟨rfl, rfl⟩ | cases setup
    | _ => first | exact ⟨rfl, rfl⟩ | cases setup
  · exact fun _ _ empty => empty
  · exact fun _ => .assign fun _ _ _ => rfl
  · apply sessionRound_keeps
    · exact looks_perform ⟨rfl, rfl⟩
    · exact fun _ => onTick_looks
  · exact fun _ => sellForGood_looks

theorem sessionTask_looks : Looks (sessionTask cfg true) := by
  apply sessionTask_keeps
  · intro o setup
    apply looks_perform
    cases o with
    | now site => cases site <;> first | exact ⟨rfl, rfl⟩ | cases setup
    | _ => first | exact ⟨rfl, rfl⟩ | cases setup
  · exact fun _ => runSession_looks
  · intro g l l' same empty
    exact same.1.trans empty

end Sessions

section Copies

variable {cfg : Market.Config} {α : Type}

def onPaper : Protocol Unit World CopyLocals Op Reply :=
  steady World (fun o => o.telling = false) fun _ => True

abbrev OnPaper (m : CopyM α) : Prop := Async.Keeps onPaper (fun _ _ => True) m

theorem onPaper_perform {o : Op} (quiet : o.telling = false) :
    OnPaper (Async.perform o : CopyM (Reply o)) := by
  apply Async.Keeps.perform
  · exact fun _ _ _ => trivial
  · exact fun _ _ _ => quiet
  · exact fun _ _ _ _ _ _ => trivial

theorem onPaper_assign {u : CopyLocals → CopyLocals} :
    OnPaper (Async.assign u : CopyM Unit) :=
  .assign fun _ _ _ => trivial

theorem OnPaper.bind_known {β : Type} {m : CopyM α} {f : α → CopyM β} {a : α}
    (first : ∀ g l, Async.wp onPaper m (fun _ _ x => x = a) g l) (rest : OnPaper (f a)) :
    OnPaper (m >>= f) := by
  intro g l _
  refine Async.wp_bind.mpr (Async.wp_mono _ (first g l) ?_)
  rintro g' l' x rfl
  exact rest g' l' trivial

theorem doSell_onPaper {pct : ℚ} {reason : SellReason} : OnPaper (doSell cfg true pct reason) := by
  apply Async.Keeps.bind
  · exact onPaper_perform rfl
  intro _
  apply Async.Keeps.bind
  · exact .locals
  intro l
  refine OnPaper.bind_known (a := .ok none) ?_ (.pure _)
  intro g l'
  apply Async.wp_step
  · trivial
  · rfl
  intro w answers _
  exact congrArg Net.result (sellAll_dry _ _ answers)

theorem releaseCopySlot_onPaper : OnPaper releaseCopySlot := by
  apply Async.Keeps.bind
  · exact onPaper_perform rfl
  intro _
  exact onPaper_assign

theorem monitorToExit_onPaper {boughtAt : Instant} {price : ℚ} :
    OnPaper (monitorToExit cfg true boughtAt price) := by
  apply Async.Keeps.bind
  · exact onPaper_assign
  intro _
  apply Async.Keeps.bind
  · exact onPaper_perform rfl
  intro _
  apply Async.Keeps.bind
  · apply Async.Keeps.loop
    · exact fun _ _ _ => trivial
    · apply copyRound_keeps
      · exact fun _ _ _ _ _ _ _ => trivial
      · exact fun _ _ => doSell_onPaper
      · exact onPaper_perform rfl
      · exact fun _ _ _ => trivial
      · exact fun _ => onPaper_perform rfl
  intro _
  apply Async.Keeps.bind
  · exact .locals
  intro l
  split_ifs
  · exact releaseCopySlot_onPaper
  · apply Async.Keeps.bind
    · exact doSell_onPaper
    intro _
    exact releaseCopySlot_onPaper

theorem establish_onPaper {mint : Pubkey} : OnPaper (establish cfg true mint (.ok none)) := by
  apply Async.Keeps.bind
  · exact .locals
  intro l
  apply Async.Keeps.bind
  · exact onPaper_perform rfl
  intro _
  apply Async.Keeps.bind
  · exact onPaper_perform rfl
  intro _
  apply Async.Keeps.bind
  · intro g l' _
    have waits : Async.Steady World (fun o => o.telling = false) (fun _ => True) firstPrice :=
      firstPrice_steady rfl
    refine waits.wp trivial (fun _ here => here) ?_ ?_ ?_
    · exact fun _ _ _ quiet => quiet
    · exact fun _ _ _ _ _ => rfl
    · exact fun _ _ _ => trivial
  intro first
  match first with
  | none => exact releaseCopySlot_onPaper
  | some price =>
      apply Async.Keeps.bind
      · exact onPaper_perform rfl
      intro boughtAt
      exact monitorToExit_onPaper

theorem copyHandle_onPaper : OnPaper (copyHandle cfg true) := by
  apply Async.Keeps.bind
  · exact .locals
  intro l
  cases Pubkey.fromStr l.alpha.mint with
  | none => exact .pure _
  | some mint =>
      apply Async.Keeps.bind
      · exact onPaper_perform rfl
      intro now
      apply Async.Keeps.bind
      · exact onPaper_perform rfl
      intro allowed
      match allowed with
      | .error spent => exact .pure _
      | .ok () =>
          apply Async.Keeps.bind
          · exact onPaper_perform rfl
          intro slot
          apply Async.Keeps.bind
          · exact onPaper_assign
          intro _
          split_ifs
          · exact releaseCopySlot_onPaper
          · refine OnPaper.bind_known (a := .ok none) ?_ establish_onPaper
            intro g l'
            apply Async.wp_step
            · trivial
            · rfl
            intro w answers _
            exact congrArg Net.result (buy_dry _ _ answers)

end Copies

section Runs

variable {cfg : Market.Config} {start : Instant} {i : Nat}

theorem sessions_look {admits : GradAdmit} {tr : GradTrace} {c : GradConfig}
    (run : GradRun cfg true start admits tr c) {t : TaskProc SessionLocals}
    (here : c.tasks[i]? = some t) :
    Proc.wp looking t (fun _ l _ => l.position = none) (ghost looking () i tr) := by
  refine graduation_protocol looking (fun _ l _ => l.position = none) () ?_ ?_ run i t here
  · exact fun ev now => sessionTask_looks () _ rfl
  · intros
    trivial

theorem copies_on_paper {admits : CopyAdmit} {tr : CopyTrace} {c : CopyConfig}
    (run : CopyRun cfg true start admits tr c) {t : TaskProc CopyLocals}
    (here : c.tasks[i]? = some t) :
    Proc.wp onPaper t (fun _ _ _ => True) (ghost onPaper () i tr) := by
  refine copy_protocol onPaper (fun _ _ _ => True) () ?_ ?_ run i t here
  · exact fun alpha => copyHandle_onPaper () _ trivial
  · intros
    trivial

end Runs

end HadesPsTrader.Tasks
