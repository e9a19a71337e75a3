/- Module: HadesPsTrader/Runs/CopyAdmission
   source: src/main.rs, src/copy_session.rs, src/pumpportal.rs, src/config.rs
   digest: The gates between a frame of a followed wallet and the buy that copies it. -/

import HadesPsTrader.Runs.CopySlots
import HadesPsTrader.Runs.ReentryGate
import HadesPsTrader.Tasks.TradeFrame

set_option autoImplicit false
set_option relaxedAutoImplicit false

namespace HadesPsTrader.Tasks

open HadesPsTrader.Market HadesPsTrader.Chain HadesPsTrader.Interaction

section Gates

variable (cfg : Market.Config) (dryRun : Bool)

/-- A buy of a wallet was copied at some clock reading: its frame spawned a session. -/
def Copied (tr : CopyTrace) (trader : String) (at' : Instant) : Prop :=
  ∃ (w w' : World) (t : AlphaTrade) (pause : Duration) (session : TaskProc CopyLocals),
    (w, .env (.frame t pause)) ∈ tr ∧ t.trader = trader ∧
    (copyMode cfg dryRun).env w (.frame t pause) = some (w', [session]) ∧ w.clock = at'

/-- The frame of a trade that `main` takes up at `w`, after the trace `tr`: a buy on a pump-amm
pool, whatever text it was parsed from, and outside the cooldowns of its wallet and its mint. -/
structure FrameClear (tr : CopyTrace) (w : World) (t : AlphaTrade) (pause : Duration) : Prop where
  buy : t.txType = "buy"
  pumpswap : t.isPumpswap = true
  text : ∀ v, accountTrade v = some t →
    v.get "txType" = some (.string "buy") ∧ v.get "pool" = some (.string "pump-amm")
  wallet : ∀ copied, Copied cfg dryRun tr t.trader copied →
    copied + fromSecs cfg.copyTrade.perWalletCooldownSecs ≤ w.clock
  mint : ∀ passed, LetThrough cfg dryRun tr t.mint passed →
    passed + fromSecs cfg.copyTrade.reentryCooldownSecs ≤ w.clock + pause

def CapPassed (i : Nat) (tr : CopyTrace) : Prop :=
  ∃ (w : World) (l : CopyLocals) (now : Instant),
    (w, .perform i l (.spendCheck now cfg.copyTrade.tradeAmountSol) (.ok ())) ∈ tr ∧
    (w.tracker.check now cfg.copyTrade.tradeAmountSol).2 = .ok ()

def SlotFound (i : Nat) (tr : CopyTrace) : Prop :=
  ∃ (w : World) (l : CopyLocals), (w, .perform i l .fetchAdd w.openPositions) ∈ tr ∧
    w.openPositions < cfg.copyTrade.maxPositions

/-- All documented gates hold for the trade that session `i` copies. `poolSol` is the WSOL liquidity
of its pool at the entry. -/
structure CopyAdmitted (tr : CopyTrace) (i : Nat) (alpha : AlphaTrade) (poolSol : ℚ) : Prop where
  frame : ∃ pre w pause post, tr = pre ++ (w, .env (.frame alpha pause)) :: post ∧
    w.spawned = i ∧ FrameClear cfg dryRun pre w alpha pause
  cap : CapPassed cfg i tr
  slot : SlotFound cfg i tr
  pool : cfg.copyTrade.minPoolSol ≤ poolSol

end Gates

section Wallets

variable {cfg : Market.Config} {dryRun : Bool} {start : Instant} {admits : CopyAdmit}
  {tr : CopyTrace} {c : CopyConfig}

variable (cfg dryRun) in
/-- The map of the per-wallet gate: its times are past, and it has the last copied buy of each
wallet. -/
structure WalletsKept (tr : CopyTrace) (w : World) : Prop where
  past : ∀ trader last, w.recentWallet trader = some last → last ≤ w.clock
  latest : ∀ trader copied, Copied cfg dryRun tr trader copied →
    ∃ last, w.recentWallet trader = some last ∧ copied ≤ last

theorem WalletsKept.other {w w' : World} {e : CopyLabel} (kept : WalletsKept cfg dryRun tr w)
    (later : w.clock ≤ w'.clock) (same : w'.recentWallet = w.recentWallet)
    (refused : ∀ t pause w'' session, e = .env (.frame t pause) →
      (copyMode cfg dryRun).env w (.frame t pause) ≠ some (w'', [session])) :
    WalletsKept cfg dryRun (tr ++ [(w, e)]) w' := by
  constructor
  · intro trader last here
    rw [same] at here
    exact (kept.past trader last here).trans later
  · rintro trader copied ⟨v, v', t, pause, session, mem, wallet, granted, clock⟩
    rw [same]
    rcases List.mem_append.mp mem with old | new
    · exact kept.latest trader copied ⟨v, v', t, pause, session, old, wallet, granted, clock⟩
    · cases List.mem_singleton.mp new
      exact absurd granted (refused t pause v' session rfl)

theorem WalletsKept.noted {w w' : World} {t : AlphaTrade} {pause : Duration}
    (kept : WalletsKept cfg dryRun tr w) (later : w.clock ≤ w'.clock)
    (noted : w'.recentWallet = Function.update w.recentWallet t.trader (some w.clock)) :
    WalletsKept cfg dryRun (tr ++ [(w, .env (.frame t pause))]) w' := by
  constructor
  · intro trader last here
    rw [noted] at here
    rcases eq_or_ne trader t.trader with rfl | other
    · rw [Function.update_self] at here
      exact Option.some.inj here ▸ later
    · rw [Function.update_of_ne other] at here
      exact (kept.past trader last here).trans later
  · rintro trader copied ⟨v, v', t', pause', session, mem, wallet, granted, clock⟩
    rw [noted]
    rcases List.mem_append.mp mem with old | new
    · obtain ⟨last, here, before⟩ :=
        kept.latest trader copied ⟨v, v', t', pause', session, old, wallet, granted, clock⟩
      rcases eq_or_ne trader t.trader with rfl | other
      · rw [Function.update_self]
        exact ⟨w.clock, rfl, before.trans (kept.past _ last here)⟩
      · rw [Function.update_of_ne other]
        exact ⟨last, here, before⟩
    · cases List.mem_singleton.mp new
      rw [← wallet, ← clock, Function.update_self]
      exact ⟨w.clock, rfl, le_refl _⟩

theorem wallets_kept (run : CopyRun cfg dryRun start admits tr c) :
    WalletsKept cfg dryRun tr c.shared := by
  apply run.invariant (fun tr c => WalletsKept cfg dryRun tr c.shared)
  · constructor
    · intro trader last here
      cases here
    · rintro trader copied ⟨_, _, _, _, _, mem, _⟩
      cases mem
  intro tr c e c' _ kept _ moved
  have later := copy_step_clock moved
  cases moved with
  | perform pending granted =>
      obtain ⟨_, _, _, _, _, rfl⟩ := World.perform_rest (copyMode_exec granted)
      exact kept.other later rfl nofun
  | unroll pending => exact kept.other later rfl nofun
  | @env e w' ts granted =>
      -- a frame that copies nothing, or no frame
      have quiet (same : w'.recentWallet = c.shared.recentWallet) (none_spawned : ts = []) :
          WalletsKept cfg dryRun (tr ++ [(c.shared, .env e)]) w' := by
        refine kept.other later same ?_
        intro t pause w'' session frame through
        cases frame
        rw [granted, none_spawned] at through
        cases through
      cases copyMode_moves granted with
      | @refused t pause running buy gate =>
          rcases gateFrame_wallet c.shared cfg.copyTrade t pause with ⟨_, same⟩ | ⟨_, noted⟩
          · exact quiet same rfl
          · exact kept.noted later noted
      | @entered t pause running buy pumpswap gate =>
          rcases gateFrame_wallet c.shared cfg.copyTrade t pause with ⟨refused, _⟩ | ⟨_, noted⟩
          · rw [refused] at gate
            cases gate
          · exact kept.noted later noted
      | background alive moved =>
          rcases World.background_cases moved with ⟨d, _, rfl⟩ | ⟨j, x, f, _, _, rfl⟩
          · exact quiet rfl rfl
          · exact quiet rfl rfl
      | _ => exact quiet rfl rfl

end Wallets

section Origins

variable {cfg : Market.Config} {dryRun : Bool} {start : Instant} {admits : CopyAdmit}
  {tr : CopyTrace} {c : CopyConfig} {i : Nat}

theorem frame_clear (run : CopyRun cfg dryRun start always tr c) {t : AlphaTrade}
    {pause : Duration} (buy : t.txType = "buy") (pumpswap : t.isPumpswap = true)
    (gate : (c.shared.gateFrame cfg.copyTrade t pause).2 = true) :
    FrameClear cfg dryRun tr c.shared t pause := by
  constructor
  case buy => exact buy
  case pumpswap => exact pumpswap
  case text =>
    intro v parsed
    have frame := frameOf_of_accountTrade parsed
    refine ⟨?_, frame.pool.mp pumpswap⟩
    rw [frame.txType, buy]
  case wallet =>
    intro copied before
    have kept := wallets_kept run
    obtain ⟨last, here, le⟩ := kept.latest t.trader copied before
    rcases gateFrame_wallet c.shared cfg.copyTrade t pause with ⟨refused, _⟩ | ⟨cooled, _⟩
    · rw [refused] at gate
      cases gate
    · have past := kept.past t.trader last here
      exact (Nat.add_le_add_right le _).trans (Nat.add_le_of_le_sub' past (cooled last here))
  case mint =>
    intro passed before
    have kept := gate_kept run
    obtain ⟨last, here, le⟩ := kept.latest t.mint passed before
    obtain ⟨_, _, through, _⟩ := gateFrame_cases c.shared cfg.copyTrade t pause
    have cooled := (through gate).1 last here
    rw [gateFrame_clock c.shared cfg.copyTrade t pause gate] at cooled
    have past : last ≤ c.shared.clock + pause :=
      (kept.past t.mint last here).trans (Nat.le_add_right _ _)
    exact (Nat.add_le_add_right le _).trans (Nat.add_le_of_le_sub' past cooled)

variable (cfg dryRun) in
/-- A session copies the trade of the frame that spawned it. -/
structure Origin (tr : CopyTrace) (i : Nat) (alpha : AlphaTrade) (t : TaskProc CopyLocals) :
    Prop where
  frame : ∃ pre w pause post, tr = pre ++ (w, .env (.frame alpha pause)) :: post ∧
    w.spawned = i ∧ FrameClear cfg dryRun pre w alpha pause
  kept : Proc.wp (steady World (fun _ => True) fun l => l.alpha = alpha) t (fun _ _ _ => True) ()

theorem Origin.append {alpha : AlphaTrade} {t u : TaskProc CopyLocals}
    (origin : Origin cfg dryRun tr i alpha t) (x : World × CopyLabel)
    (kept : Proc.wp (steady World (fun _ => True) fun l => l.alpha = alpha) u
      (fun _ _ _ => True) ()) : Origin cfg dryRun (tr ++ [x]) i alpha u := by
  obtain ⟨pre, w, pause, post, split, spawned, clear⟩ := origin.frame
  refine ⟨⟨pre, w, pause, post ++ [x], ?_, spawned, clear⟩, kept⟩
  rw [split, List.append_assoc, List.cons_append]

theorem origins (run : CopyRun cfg dryRun start always tr c) :
    ∀ (i : Nat) t, c.tasks[i]? = some t → ∃ alpha, Origin cfg dryRun tr i alpha t := by
  refine run.each (fun tr i t => ∃ alpha, Origin cfg dryRun tr i alpha t) ?_ ?_ ?_ ?_ ?_
  · intro i t here
    cases here
  · intro tr c i l o r s' resume before pending known _ granted
    obtain ⟨alpha, origin⟩ := known
    exact ⟨alpha, origin.append _ (origin.kept.2.2 c.shared r trivial)⟩
  · intro tr c i β l body exit before pending known
    obtain ⟨alpha, origin⟩ := known
    exact ⟨alpha, origin.append _ (Proc.wp_unroll origin.kept)⟩
  · intro tr c e s' ts before granted i t new here
    cases copyMode_moves granted with
    | @entered alpha pause running buy pumpswap gate =>
        have first : i - c.tasks.length = 0 := by
          have lt := (List.getElem?_eq_some_iff.mp here).1
          rw [List.length_singleton] at lt
          omega
        rw [first] at here
        cases here
        refine ⟨alpha, ⟨tr, c.shared, pause, [], rfl, ?_, ?_⟩, ?_⟩
        · rw [copy_spawned before]
          omega
        · exact frame_clear before buy pumpswap gate
        · have keeps :=
            copyHandle_keepsAlpha (S := World) cfg dryRun alpha { alpha := alpha } rfl
          refine Proc.wp_mono _ ?_ () keeps
          intro _ _ _ _
          trivial
    | _ => cases here
  · intro tr w e i t _ known
    obtain ⟨alpha, origin⟩ := known
    exact ⟨alpha, origin.append _ origin.kept⟩

theorem origin_frame (run : CopyRun cfg dryRun start always tr c) {l : CopyLocals} {o : Op}
    {resume : Reply o → TaskProc CopyLocals} (here : c.tasks[i]? = some (.op l o resume)) :
    ∃ pre w pause post, tr = pre ++ (w, .env (.frame l.alpha pause)) :: post ∧ w.spawned = i ∧
      FrameClear cfg dryRun pre w l.alpha pause := by
  obtain ⟨alpha, origin⟩ := origins run i _ here
  have same : l.alpha = alpha := origin.kept.1
  rw [same]
  exact origin.frame

/-- The gates that a session has behind it in each of its stages. -/
def StagePassed (cfg : Market.Config) (i : Nat) (tr : CopyTrace) : CopyStage → Prop
  | .fresh => True
  | .checked => CapPassed cfg i tr
  | .reserved place =>
      CapPassed cfg i tr ∧ (place < cfg.copyTrade.maxPositions → SlotFound cfg i tr)
  | .released => True

theorem CapPassed.append (h : CapPassed cfg i tr) (x : World × CopyLabel) :
    CapPassed cfg i (tr ++ [x]) := by
  obtain ⟨w, l, now, mem, allowed⟩ := h
  exact ⟨w, l, now, List.mem_append_left _ mem, allowed⟩

theorem SlotFound.append (h : SlotFound cfg i tr) (x : World × CopyLabel) :
    SlotFound cfg i (tr ++ [x]) := by
  obtain ⟨w, l, mem, free⟩ := h
  exact ⟨w, l, List.mem_append_left _ mem, free⟩

theorem StagePassed.append {g : CopyStage} (h : StagePassed cfg i tr g) (x : World × CopyLabel) :
    StagePassed cfg i (tr ++ [x]) g := by
  cases g with
  | fresh => trivial
  | checked => exact CapPassed.append h x
  | reserved place => exact ⟨h.1.append x, fun below => (h.2 below).append x⟩
  | released => trivial

theorem stage_passed (run : CopyRun cfg dryRun start admits tr c) (i : Nat) :
    StagePassed cfg i tr (copyStage cfg i tr) := by
  apply run.invariant (fun tr _ => StagePassed cfg i tr (copyStage cfg i tr))
  · trivial
  intro tr c e c' before passed _ moved
  cases moved with
  | @perform j l o resume r s' pending granted =>
      rcases eq_or_ne j i with rfl | other
      · have granted := copyMode_exec granted
        have staged := copyStage_permits before pending
        have permitted := copy_permits before pending
        rw [copyStage_self]
        cases o with
        | spendCheck now amountSol =>
            obtain ⟨amount, _⟩ := permitted
            obtain ⟨allowed, _⟩ := World.perform_spendCheck.mp granted
            match r with
            | .ok () =>
                subst amount
                exact ⟨c.shared, l, now, List.mem_append_right _ (List.mem_singleton.mpr rfl),
                  allowed.symm⟩
            | .error spent => exact passed.append _
        | fetchAdd =>
            obtain ⟨found, _⟩ := World.perform_fetchAdd.mp granted
            have checked : copyStage cfg j tr = .checked := staged
            rw [checked] at passed
            subst found
            refine ⟨CapPassed.append passed _, ?_⟩
            intro below
            exact ⟨c.shared, l, List.mem_append_right _ (List.mem_singleton.mpr rfl), below⟩
        | fetchSub => trivial
        | _ => exact passed.append _
      · rw [copyStage_other other]
        exact passed.append _
  | unroll pending =>
      rw [copyStage_unroll]
      exact passed.append _
  | env granted =>
      rw [copyStage_env]
      exact passed.append _

end Origins

/-- A copied buy has passed every documented gate exactly when the liquidity of its pool, which
nothing on the way reads, is at least `min_pool_sol`. `pools` are the liquidities at the buy. -/
theorem copy_admitted_iff (cfg : Market.Config) (dryRun : Bool) (start : Instant) (tr : CopyTrace)
    (c : CopyConfig) (run : CopyRun cfg dryRun start always tr c) (i : Nat) (l : CopyLocals)
    (p : BuyParams) (answers : Nat → SubmitAnswers) (c' : CopyConfig)
    (moved : Step (copyMode cfg dryRun) c (.perform i l (.buy p) answers) c')
    (pools : String → ℚ) : CopyAdmitted cfg dryRun tr i l.alpha (pools l.alpha.mint) ↔
      cfg.copyTrade.minPoolSol ≤ pools l.alpha.mint := by
  constructor
  · intro admitted
    exact admitted.pool
  · intro deep
    cases moved with
    | perform pending granted =>
        obtain ⟨place, reserved, below⟩ := copyStage_permits run pending
        have passed := stage_passed run i
        rw [reserved] at passed
        obtain ⟨cap, slot⟩ := passed
        exact ⟨origin_frame run pending, cap, slot below, deep⟩

/-- The session that buys in a step, with its locals. -/
def buyerOf : CopyLabel → Option (Nat × CopyLocals)
  | .perform i l (.buy _) _ => some (i, l)
  | _ => none

theorem buyerOf_eq {e : CopyLabel} {i : Nat} {l : CopyLocals} (h : buyerOf e = some (i, l)) :
    ∃ p answers, e = .perform i l (.buy p) answers := by
  cases e with
  | perform j l' o r =>
      cases o with
      | buy p =>
          cases h
          exact ⟨p, r, rfl⟩
      | _ => cases h
  | unroll j => cases h
  | env e => cases h

theorem copied_buy : ∃ tr c i l p answers c', CopyRun eager false 0 always tr c ∧
    Step (copyMode eager false) c (.perform i l (.buy p) answers) c' := by
  obtain ⟨tr, c, run, next⟩ := System.script_reaches (copyMode eager false) (copyStart eager 0)
    ([.env (.frame (alphaTrade someMint "alpha" "buy") 0)] ++ go readyNet 0 3)
    (fun _ c => ((copyMode eager false).move c (.task 0 (World.answer readyNet 0))).any
      fun x => (buyerOf x.1).isSome) (by decide +kernel)
  obtain ⟨⟨e, c'⟩, moved, buys⟩ := (Option.any_eq_true _ _).mp next
  obtain ⟨⟨i, l⟩, buyer⟩ := Option.isSome_iff_exists.mp buys
  obtain ⟨p, answers, rfl⟩ := buyerOf_eq buyer
  exact ⟨tr, c, i, l, p, answers, c', run, System.move_step moved⟩

theorem copy_admitted_deep_pool : ∃ tr i alpha, CopyAdmitted eager false tr i alpha 30 := by
  obtain ⟨tr, c, i, l, p, answers, c', run, moved⟩ := copied_buy
  exact ⟨tr, i, l.alpha,
    (copy_admitted_iff eager false 0 tr c run i l p answers c' moved (fun _ => 30)).mpr (le_refl _)⟩

/-- The session buys into an empty pool. -/
theorem shallow_pool_bought : ¬ ∀ (cfg : Market.Config) (dryRun : Bool) (start : Instant)
    (tr : CopyTrace) (c : CopyConfig), CopyRun cfg dryRun start always tr c →
      ∀ i l p answers c',
        Step (copyMode cfg dryRun) c (.perform i l (.buy p) answers) c' → ∀ pools : String → ℚ,
          CopyAdmitted cfg dryRun tr i l.alpha (pools l.alpha.mint) := by
  intro claimed
  obtain ⟨tr, c, i, l, p, answers, c', run, moved⟩ := copied_buy
  have admitted := claimed eager false 0 tr c run i l p answers c' moved fun _ => 0
  exact absurd admitted.pool (by decide +kernel)

end HadesPsTrader.Tasks
