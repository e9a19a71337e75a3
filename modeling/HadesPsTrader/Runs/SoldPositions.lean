/- Module: HadesPsTrader/Runs/SoldPositions
   source: src/session.rs, src/trader.rs
   digest: When an open position still has its tokens, whatever sells of it have failed. -/

import HadesPsTrader.Chain.SellLandings
import HadesPsTrader.Runs.FreshPrices
import HadesPsTrader.Runs.SlotAccounting

set_option autoImplicit false
set_option relaxedAutoImplicit false

namespace HadesPsTrader.Tasks

open HadesPsTrader.Market HadesPsTrader.Chain HadesPsTrader.Interaction

section Sales

variable (cfg : Market.Config) (dryRun : Bool)

/-- The step is a sell of the mint, and a transaction of it lands. A sell is of all the tokens of
the mint that the wallet has, whichever session makes it. -/
def sellsOff (mint : String) : GradLabel → Bool
  | .perform _ _ (.sellAll p) answers => p.mint = mint ∧
      landed (Chain.sellAll (jitoSettings cfg) p dryRun answers).wire ≠ []
  | _ => false

def setsUp (i : Nat) (e : GradLabel) : Bool := (settingUp e).any fun x => x.1 = i

/-- The tokens of the mint were sold off since session `i` last set up a position. -/
def soldSince (i : Nat) (mint : String) (tr : GradTrace) : Bool :=
  tr.foldl (fun sold x => !setsUp i x.2 && (sold || sellsOff cfg dryRun mint x.2)) false

/-- Every sell call settles, and no other session holds a position of a mint that is sold off. -/
def SellsSettle : GradAdmit := fun tr _ e => match e with
  | .perform i _ (.sellAll p) answers =>
      (dryRun = false → SellSettles (jitoSettings cfg) answers) ∧
        (sellsOff cfg dryRun p.mint e = true → ∀ j, j ≠ i →
          (diary cfg dryRun j tr).mint = some p.mint → (diary cfg dryRun j tr).holding = false)
  | _ => True

/-- No session has a phantom position: the tokens of an open one were not sold off since it was set
up. -/
def NoPhantom (tr : GradTrace) (c : GradConfig) : Prop :=
  ∀ i t pos, c.tasks[i]? = some t → t.locals.position = some pos →
    soldSince cfg dryRun i pos.mint tr = false

variable {cfg dryRun}

theorem soldSince_append {i : Nat} {mint : String} {tr : GradTrace} (x : World × GradLabel) :
    soldSince cfg dryRun i mint (tr ++ [x]) =
      (!setsUp i x.2 && (soldSince cfg dryRun i mint tr || sellsOff cfg dryRun mint x.2)) := by
  simp only [soldSince, List.foldl_append, List.foldl_cons, List.foldl_nil]

theorem sellsOff_failed {i : Nat} {l : SessionLocals} {p : SellAllParams}
    {answers : Nat → SubmitAnswers} {mint : String}
    (settles : dryRun = false → SellSettles (jitoSettings cfg) answers)
    (failed : soldOk cfg dryRun p answers = false) :
    sellsOff cfg dryRun mint (.perform i l (.sellAll p) answers) = false := by
  have unsold : landed (Chain.sellAll (jitoSettings cfg) p dryRun answers).wire = [] := by
    cases dryRun with
    | true => rw [sellAll_dry]; rfl
    | false => exact (failsUnsold_iff (jitoSettings cfg) p answers).mpr (settles rfl) failed
  simp [sellsOff, unsold]

end Sales

section Runs

variable {cfg : Market.Config} {dryRun : Bool} {start : Instant} {tr : GradTrace} {c : GradConfig}

theorem sellsOff_held {g : SessionDiary} {w : World} {i : Nat} {l : SessionLocals} {o : Op}
    {r : Reply o} (held : (g.next cfg dryRun w l o r).holding = true)
    (admitted : SellsSettle cfg dryRun tr c (.perform i l o r)) (mint : String) :
    sellsOff cfg dryRun mint (.perform i l o r) = false := by
  cases o with
  | sellAll p =>
      cases sold : soldOk cfg dryRun p r with
      | false => exact sellsOff_failed admitted.1 sold
      | true => simp [SessionDiary.entry, SessionDiary.sale, sold] at held
  | _ => rfl

theorem tokens_kept (run : GradRun cfg dryRun start (SellsSettle cfg dryRun) tr c) (i : Nat) :
    (diary cfg dryRun i tr).holding = true → ∃ mint, (diary cfg dryRun i tr).mint = some mint ∧
      soldSince cfg dryRun i mint tr = false := by
  apply run.invariant (fun tr _ => (diary cfg dryRun i tr).holding = true →
    ∃ mint, (diary cfg dryRun i tr).mint = some mint ∧ soldSince cfg dryRun i mint tr = false)
  · intro holding
    cases holding
  intro tr c e c' before ih admitted moved
  cases moved with
  | @perform j l o resume r s' pending granted =>
      rcases eq_or_ne j i with rfl | other
      · rw [diary_self]
        intro holding
        refine ⟨l.event.mint, rfl, ?_⟩
        rw [soldSince_append]
        cases held : (diary cfg dryRun j tr).holding with
        | true =>
            obtain ⟨mint, known, kept⟩ := ih held
            obtain rfl := (session_stands before pending).mint mint known
            rw [kept, sellsOff_held holding admitted, Bool.or_false, Bool.and_false]
        | false =>
            have announced := settingUp_of_opened j (session_permits before pending)
              (session_stands before pending) held holding
            simp [setsUp, announced]
      · rw [diary_other other]
        intro holding
        obtain ⟨mint, known, kept⟩ := ih holding
        refine ⟨mint, known, ?_⟩
        have unsold : sellsOff cfg dryRun mint (.perform j l o r) = false := by
          by_contra sold
          rw [Bool.not_eq_false] at sold
          cases o with
          | sellAll p =>
              obtain rfl : p.mint = mint := (of_decide_eq_true sold).1
              rw [admitted.2 sold i other.symm known] at holding
              cases holding
          | _ => cases sold
        rw [soldSince_append, kept, unsold, Bool.or_false, Bool.and_false]
  | unroll pending =>
      rw [diary_unroll]
      intro holding
      obtain ⟨mint, known, kept⟩ := ih holding
      refine ⟨mint, known, ?_⟩
      rw [soldSince_append, kept]
      rfl
  | env granted =>
      rw [diary_env]
      intro holding
      obtain ⟨mint, known, kept⟩ := ih holding
      refine ⟨mint, known, ?_⟩
      rw [soldSince_append, kept]
      rfl

theorem no_phantom (run : GradRun cfg dryRun start (SellsSettle cfg dryRun) tr c) :
    NoPhantom cfg dryRun tr c := by
  intro i t pos here position
  have coherent := session_coherent run here
  cases coherent.stance with
  | opened pos' position' _ _ _ holding _ mint =>
      obtain rfl : pos' = pos := Option.some.inj (position'.symm.trans position)
      obtain ⟨known, noted, kept⟩ := tokens_kept run i holding
      rw [mint, ← coherent.mint known noted]
      exact kept
  | idle away _ _ _ _ _ => simp [away] at position
  | selling _ away _ _ _ _ _ _ => simp [away] at position
  | buying _ away _ _ _ _ _ _ => simp [away] at position

/-- What a session makes of its positions and of its failed sells. -/
structure TokensBacked (cfg : Market.Config) (dryRun : Bool) (tr : GradTrace) (c : GradConfig) :
    Prop where
  /-- No session has a phantom position. -/
  held : NoPhantom cfg dryRun tr c
  /-- The position that a failed PnL exit puts back still has its tokens. -/
  restored : ∀ i l p answers c',
    Step (graduation cfg dryRun) c (.perform i l (.sellAll p) answers) c' →
    SellsSettle cfg dryRun tr c (.perform i l (.sellAll p) answers) →
    soldOk cfg dryRun p answers = false →
    (diary cfg dryRun i tr).reason.any SellReason.isExit = true →
    ∃ t pos, c'.tasks[i]? = some t ∧ t.locals.position = some pos ∧
      soldSince cfg dryRun i pos.mint
        (tr ++ [(c.shared, .perform i l (.sellAll p) answers)]) = false

end Runs

/-- A failed sell means that the tokens are still held exactly where the call settles; and as long
as every sell of a run settles, and sells off no position of another session, all open positions
have their tokens. -/
theorem failed_sells_keep_tokens_iff (jito : Option JitoConfig) (p : SellAllParams)
    (answers : Nat → SubmitAnswers) (cfg : Market.Config) (dryRun : Bool) (start : Instant)
    (tr : GradTrace) (c : GradConfig) :
    (FailsUnsold jito p answers ↔ SellSettles jito answers) ∧
      (GradRun cfg dryRun start (SellsSettle cfg dryRun) tr c → TokensBacked cfg dryRun tr c) := by
  constructor
  · exact failsUnsold_iff jito p answers
  intro run
  constructor
  · exact no_phantom run
  intro i l p answers c' moved settles failed exit
  have free : GradRun cfg dryRun start always tr c := run.refine fun _ _ _ => trivial
  obtain ⟨t, here, open_again, _⟩ := failed_exit_keeps free moved failed exit
  obtain ⟨pos, position⟩ := Option.isSome_iff_exists.mp open_again
  exact ⟨t, pos, here, position, no_phantom (run.step settles moved) i t pos here position⟩

def saleAnswers : GradLabel → Option (Nat → SubmitAnswers)
  | .perform _ _ (.sellAll _) answers => some answers
  | _ => none

def LoneSales : GradAdmit := fun _ c e =>
  c.tasks.length ≤ 1 ∧ ∀ answers ∈ saleAnswers e, SellSettles (jitoSettings eager) answers

instance (tr : GradTrace) (c : GradConfig) (e : GradLabel) : Decidable (LoneSales tr c e) :=
  inferInstanceAs (Decidable (_ ∧ ∀ answers ∈ saleAnswers e, _))

private theorem sellsSettle_of_lone {start : Instant} {admits : GradAdmit} {tr : GradTrace}
    {c c' : GradConfig} {e : GradLabel} (before : GradRun eager false start admits tr c)
    (lone : LoneSales tr c e) (moved : Step (graduation eager false) c e c') :
    SellsSettle eager false tr c e := by
  cases moved with
  | @perform i l o resume r s' pending granted =>
      cases o with
      | sellAll p =>
          refine ⟨fun _ => lone.2 r rfl, ?_⟩
          intro _ j other known
          have spawned : i < c.tasks.length := (List.getElem?_eq_some_iff.mp pending).1
          have alone := lone.1
          rw [diary, Run.ghost_unspawned _ _ before j (by omega)] at known
          cases known
      | _ => trivial
  | unroll pending => trivial
  | env granted => trivial

theorem failed_sells_keep_tokens_refused_sell : FailsUnsold none
      ⟨someMint, none, 10, 0, 0⟩ deafNet.sell ∧
    ∃ tr c, c.tasks.map (fun t => t.locals.position.isSome) = [true] ∧
      (diary eager false 0 tr).attempt = some (fromSecs 60) ∧ TokensBacked eager false tr c := by
  obtain ⟨tr, c, run, kept⟩ := System.drive_reaches (graduation eager false)
    LoneSales (fun tr c e => LoneSales tr c e)
    (fun _ _ _ => of_decide_eq_true) (graduationStart eager 0)
    (warmUp 0 ++ buyTick readyNet 0 9 ++ price 0 1 10 ++ [.env (.advance (fromSecs 60))] ++
      go deafNet 0 5)
    (fun tr c => c.tasks.map (fun t => t.locals.position.isSome) = [true] ∧
      (diary eager false 0 tr).attempt = some (fromSecs 60)) (by decide +kernel)
  obtain ⟨held, tried⟩ := of_decide_eq_true kept
  obtain ⟨call, backed⟩ := failed_sells_keep_tokens_iff none ⟨someMint, none, 10, 0, 0⟩
    deafNet.sell eager false 0 tr c
  exact ⟨call.mpr (by decide +kernel), tr, c, held, tried, backed (run.refine sellsSettle_of_lone)⟩

/-- Trades that confirm, but for sells that land late. -/
def lateNet : Network := { readyNet with sell := lateSale }

/-- The first transaction of a sell lands after its confirmation has timed out, and the attempts
that follow find nothing to sell: the call fails, and the session keeps a phantom. -/
theorem late_sell_leaves_phantom :
    ¬ FailsUnsold none ⟨someMint, none, 10, 0, 0⟩ lateNet.sell ∧
    ∃ tr c, GradRun eager false 0 always tr c ∧ ¬ NoPhantom eager false tr c := by
  constructor
  · intro unsold
    exact absurd (unsold (by decide +kernel)) (by decide +kernel)
  obtain ⟨tr, c, run, phantom⟩ := System.script_reaches (graduation eager false)
    (graduationStart eager 0)
    (warmUp 0 ++ buyTick readyNet 0 9 ++ price 0 1 10 ++ [.env (.advance (fromSecs 60))] ++
      go lateNet 0 5)
    (fun tr c => c.tasks.map (fun t => t.locals.position.map Position.mint) = [some someMint] ∧
      soldSince eager false 0 someMint tr = true) (by decide +kernel)
  obtain ⟨mints, sold⟩ := of_decide_eq_true phantom
  refine ⟨tr, c, run, ?_⟩
  intro backed
  obtain ⟨t, tasks, mint⟩ := List.map_eq_singleton_iff.mp mints
  obtain ⟨pos, position, same⟩ := Option.map_eq_some_iff.mp mint
  have kept := backed 0 t pos (by rw [tasks]; rfl) position
  rw [same, sold] at kept
  cases kept

end HadesPsTrader.Tasks
