/- Module: HadesPsTrader/Runs/CleanExit
   source: src/main.rs, src/copy_session.rs
   digest: When the exit of copy mode that reports all positions closed leaves no session behind. -/

import HadesPsTrader.Runs.CopySlots

set_option autoImplicit false
set_option relaxedAutoImplicit false

namespace HadesPsTrader.Tasks

open HadesPsTrader.Market HadesPsTrader.Chain HadesPsTrader.Interaction

/-- A session can still reserve a slot, finding the counter as it is in `w`, and then call
`trader::buy`. -/
def CanStillBuy (w : World) (t : TaskProc CopyLocals) : Prop :=
  ∃ (answer : (o : Op) → Reply o) (p : BuyParams), answer .fetchAdd = w.openPositions ∧
    List.Sublist [⟨.fetchAdd, answer .fetchAdd⟩, ⟨.buy p, answer (.buy p)⟩] (t.play answer).1

/-- No session is left that holds a slot or a position, or can still buy. -/
def CleanExit (c : CopyConfig) : Prop :=
  ∀ (i : Nat) t, c.tasks[i]? = some t → t.finished = false →
    t.locals.slot = none ∧ t.locals.boughtAt = none ∧ ¬ CanStillBuy c.shared t

/-- A session on its way to `fetch_add`. From there it buys if it finds the counter below the cap,
and releases its slot if not. -/
inductive Opening (cfg : Market.Config) : CopyStage → TaskProc CopyLocals → Prop
  | fetchAdd {l : CopyLocals} {resume : Int → TaskProc CopyLocals}
      (buys : ∀ slot < (cfg.copyTrade.maxPositions : Int), ∃ l' p next,
        resume slot = .op l' (.buy p) next)
      (full : ∀ slot, (cfg.copyTrade.maxPositions : Int) ≤ slot → ∃ l',
        resume slot = releaseCopySlot l') :
      Opening cfg .checked (.op l .fetchAdd resume)
  | spendCheck {l : CopyLocals} {now : Instant} {amountSol : ℚ}
      {resume : Except ℚ Unit → TaskProc CopyLocals}
      (allowed : Opening cfg .checked (resume (.ok ())))
      (refused : ∀ spent, ∃ l', resume (.error spent) = .ret l' ()) :
      Opening cfg .fresh (.op l (.spendCheck now amountSol) resume)
  | now {l : CopyLocals} {resume : Instant → TaskProc CopyLocals}
      (read : ∀ t, Opening cfg .fresh (resume t)) :
      Opening cfg .fresh (.op l (.now .spendCheck) resume)

section Openings

variable {cfg : Market.Config} {dryRun : Bool} {w : World} {g : CopyStage}
  {t : TaskProc CopyLocals}

theorem copyHandle_opens (alpha : AlphaTrade) :
    (copyHandle cfg dryRun { alpha := alpha }).finished = true ∨
      Opening cfg .fresh (copyHandle cfg dryRun { alpha := alpha }) := by
  rw [copyHandle, Async.locals_bind]
  dsimp only
  cases Pubkey.fromStr alpha.mint with
  | none => exact .inl rfl
  | some mint =>
      right
      apply Opening.now
      intro now
      apply Opening.spendCheck
      · apply Opening.fetchAdd
        · intro slot below
          have entered (full rest : CopyM Unit) (l : CopyLocals) :
              (if (cfg.copyTrade.maxPositions : Int) ≤ slot then full else rest) l = rest l := by
            rw [if_neg (not_le.mpr below)]
          exact ⟨_, _, _, entered releaseCopySlot _ { alpha := alpha, slot := some slot }⟩
        · intro slot reached
          have released (full rest : CopyM Unit) (l : CopyLocals) :
              (if (cfg.copyTrade.maxPositions : Int) ≤ slot then full else rest) l = full l := by
            rw [if_pos reached]
          exact ⟨_, released releaseCopySlot _ { alpha := alpha, slot := some slot }⟩
      · intro spent
        exact ⟨_, rfl⟩

theorem Opening.next {l : CopyLocals} {o : Op} {resume : Reply o → TaskProc CopyLocals}
    (h : Opening cfg g (.op l o resume)) (r : Reply o) (running : (resume r).finished = false)
    (empty : (g.next o r).place? = none) : Opening cfg (g.next o r) (resume r) := by
  cases h with
  | fetchAdd buys full => cases empty
  | spendCheck allowed refused =>
      match r with
      | .ok () => exact allowed
      | .error spent =>
          obtain ⟨l', returned⟩ := refused spent
          rw [returned] at running
          cases running
  | now read => exact read r

theorem Opening.canStillBuy (h : Opening cfg g t) (zero : w.openPositions = 0)
    (room : 0 < cfg.copyTrade.maxPositions) : CanStillBuy w t := by
  -- the gates let the session through, and the counter is as it is
  let answer : (o : Op) → Reply o := fun o => match o with
    | .spendCheck _ _ => .ok ()
    | o => World.answer readyNet 0 w o
  have slot : answer .fetchAdd = w.openPositions := rfl
  have ways : ∃ p, List.Sublist [⟨.fetchAdd, answer .fetchAdd⟩, ⟨.buy p, answer (.buy p)⟩]
      (t.play answer).1 := by
    induction h with
    | fetchAdd buys full =>
        obtain ⟨l', p, next, resumed⟩ := buys (answer .fetchAdd) (by rw [slot, zero]; omega)
        refine ⟨p, ?_⟩
        rw [Proc.play, resumed, Proc.play]
        apply List.Sublist.cons_cons
        apply List.Sublist.cons_cons
        exact List.nil_sublist _
    | spendCheck allowed refused ih =>
        obtain ⟨p, later⟩ := ih
        exact ⟨p, List.Sublist.cons _ later⟩
    | now read ih =>
        obtain ⟨p, later⟩ := ih w.clock
        exact ⟨p, List.Sublist.cons _ later⟩
  obtain ⟨p, ordered⟩ := ways
  exact ⟨answer, p, slot, ordered⟩

theorem Opening.not_canStillBuy (h : Opening cfg g t) (zero : w.openPositions = 0)
    (noRoom : cfg.copyTrade.maxPositions = 0) : ¬ CanStillBuy w t := by
  rintro ⟨answer, p, slot, ordered⟩
  have bought : (⟨.buy p, answer (.buy p)⟩ : Sigma Reply) ∈ (t.play answer).1 :=
    ordered.subset (List.mem_cons_of_mem _ (List.mem_singleton.mpr rfl))
  clear ordered
  induction h with
  | fetchAdd buys full =>
      rw [Proc.play, List.mem_cons] at bought
      rcases bought with same | later
      · cases same
      · have reached : (cfg.copyTrade.maxPositions : Int) ≤ answer .fetchAdd := by
          rw [slot, zero, noRoom]
          rfl
        obtain ⟨l', released⟩ := full _ reached
        rw [released] at later
        cases List.mem_singleton.mp later
  | spendCheck allowed refused ih =>
      rw [Proc.play, List.mem_cons] at bought
      rcases bought with same | later
      · cases same
      cases allow : answer (.spendCheck _ _) with
      | ok u =>
          rw [allow] at later
          exact ih later
      | error spent =>
          obtain ⟨l', returned⟩ := refused spent
          rw [allow, returned] at later
          cases later
  | now read ih =>
      rw [Proc.play, List.mem_cons] at bought
      rcases bought with same | later
      · cases same
      · exact ih _ later

end Openings

section Runs

variable {cfg : Market.Config} {dryRun : Bool} {start : Instant} {admits : CopyAdmit}
  {tr : CopyTrace} {c : CopyConfig} {i : Nat} {t : TaskProc CopyLocals}

theorem place_before (run : CopyRun cfg dryRun start admits tr c) {l : CopyLocals} {o : Op}
    {resume : Reply o → TaskProc CopyLocals} (pending : c.tasks[i]? = some (.op l o resume))
    (r : Reply o) (unreleased : (copyStage cfg i tr).next o r ≠ .released)
    (empty : ((copyStage cfg i tr).next o r).place? = none) :
    (copyStage cfg i tr).place? = none := by
  have permitted := copyStage_permits run pending
  cases stage : copyStage cfg i tr with
  | fresh => rfl
  | checked => rfl
  | released => rfl
  | reserved place =>
      rw [stage] at permitted empty unreleased
      cases o with
      | fetchAdd => cases permitted
      | fetchSub => exact absurd rfl unreleased
      | spendCheck now amountSol => cases permitted
      | _ => cases empty

theorem spawned_opens {alpha : AlphaTrade}
    (running : (copyHandle cfg dryRun { alpha := alpha }).finished = false) :
    Opening cfg .fresh (copyHandle cfg dryRun { alpha := alpha }) := by
  have opens : (copyHandle cfg dryRun { alpha := alpha }).finished = true ∨
      Opening cfg .fresh (copyHandle cfg dryRun { alpha := alpha }) := copyHandle_opens alpha
  rcases opens with returned | opening
  · rw [returned] at running
    cases running
  · exact opening

theorem copy_opening (run : CopyRun cfg dryRun start admits tr c) :
    ∀ (i : Nat) t, c.tasks[i]? = some t → t.finished = false →
      (copyStage cfg i tr).place? = none → Opening cfg (copyStage cfg i tr) t := by
  refine run.each (fun tr i t => t.finished = false → (copyStage cfg i tr).place? = none →
    Opening cfg (copyStage cfg i tr) t) ?_ ?_ ?_ ?_ ?_
  · intro i t here
    cases here
  · intro tr c i l o r s' resume before pending opened admitted granted running empty
    have there : (c.tasks.set i (resume r))[i]? = some (resume r) := by
      have spawned := (List.getElem?_eq_some_iff.mp pending).1
      simp [spawned]
    have run' := before.step admitted (.perform pending granted)
    have unreleased := (copyStage_coherent run' there running).running
    rw [copyStage_self] at empty unreleased ⊢
    have opening := opened rfl (place_before before pending r unreleased empty)
    exact opening.next r running empty
  · intro tr c i β l body exit before pending opened _ empty
    -- nothing opens at the head of a loop
    rw [copyStage_unroll] at empty
    have opening := opened rfl empty
    generalize copyStage cfg i tr = stage at opening
    cases opening
  · intro tr c e s' ts before granted i t new here running empty
    rw [copyStage_env, copyStage, Run.ghost_unspawned _ _ before i new]
    have spawned := List.mem_of_getElem? here
    rcases copyMode_env_cases granted with ⟨alpha, _, _, _, _, rfl⟩ | ⟨rfl, _⟩
    · cases List.mem_singleton.mp spawned
      exact spawned_opens running
    · cases spawned
  · intro tr w e i t aside opened running empty
    rw [copyStage, ghost_aside aside] at empty ⊢
    exact opened running empty

theorem exited_counter (run : CopyRun cfg dryRun start admits tr c) :
    ∀ left, c.shared.main = .exited left → c.shared.openPositions = left := by
  apply run.invariant (fun _ c => ∀ left, c.shared.main = .exited left →
    c.shared.openPositions = left)
  · intro left gone
    cases gone
  intro tr c e c' before kept _ moved left gone
  cases moved with
  | @perform i l o resume r s' pending granted =>
      have main := (World.perform_clock (copyMode_exec granted)).2.2.1
      rw [main] at gone
      simp only [copyMode, gone] at granted
      cases granted
  | unroll pending => exact kept left gone
  | env granted =>
      cases copyMode_moves granted with
      | fanned running sell => exact kept left gone
      | skipped running other => exact kept left gone
      | refused running buy gate =>
          obtain ⟨clock, recent, recentWallet, rest⟩ := gateFrame_rest c.shared cfg.copyTrade _ _
          rw [rest] at gone ⊢
          exact kept left gone
      | entered running buy pumpswap gate =>
          obtain ⟨clock, recent, recentWallet, rest⟩ := gateFrame_rest c.shared cfg.copyTrade _ _
          rw [rest] at gone ⊢
          exact kept left gone
      | signalled running => cases gone
      | drained draining empty => cases gone
      | waited draining busy => cases gone
      | exited draining =>
          cases gone
          rfl
      | background alive moved =>
          have counter := (World.background_common moved).2.1
          rw [counter]
          apply kept left
          rcases World.background_cases moved with ⟨d, _, rfl⟩ | ⟨j, x, f, _, _, rfl⟩
          · exact gone
          · exact gone

/-- At a clean exit every session that reserved a slot has returned, without a position. -/
theorem counted_out (run : CopyRun cfg dryRun start admits tr c) (gone : c.shared.main = .exited 0)
    (here : c.tasks[i]? = some t) : (copyStage cfg i tr).place? = none := by
  have zero := exited_counter run 0 gone
  rw [copy_counter_eq run] at zero
  have none_held := List.countP_eq_zero.mp (Int.ofNat_eq_zero.mp zero) t (List.mem_of_getElem? here)
  rw [copyStage_slot run here] at none_held
  exact Option.not_isSome_iff_eq_none.mp none_held

end Runs

theorem clean_exit_iff (cfg : Market.Config) (dryRun : Bool) (start : Instant) (tr : CopyTrace)
    (c : CopyConfig) (run : CopyRun cfg dryRun start always tr c)
    (gone : c.shared.main = .exited 0) :
    CleanExit c ↔ cfg.copyTrade.maxPositions = 0 ∨
      ∀ (i : Nat) t, c.tasks[i]? = some t → t.finished = true ∨ 0 < copyReservations i tr := by
  have zero : c.shared.openPositions = 0 := exited_counter run 0 gone
  have opening (i : Nat) (t : TaskProc CopyLocals) (here : c.tasks[i]? = some t)
      (running : t.finished = false) : Opening cfg (copyStage cfg i tr) t :=
    copy_opening run i t here running (counted_out run gone here)
  constructor
  · intro clean
    rcases Nat.eq_zero_or_pos cfg.copyTrade.maxPositions with full | room
    · exact .inl full
    right
    intro i t here
    cases running : t.finished with
    | true => exact .inl rfl
    | false =>
        obtain ⟨_, _, stuck⟩ := clean i t here running
        exact absurd ((opening i t here running).canStillBuy zero room) stuck
  · intro reached i t here running
    have coherent := copyStage_coherent run here running
    have empty := counted_out run gone here
    refine ⟨by rw [coherent.slot, empty], coherent.empty empty, ?_⟩
    rcases reached with full | reached
    · exact (opening i t here running).not_canStillBuy zero full
    · rcases reached i t here with finished | reserved
      · rw [running] at finished
        cases finished
      · -- a session that reserved and holds no slot has returned
        have counted := copyReservations_eq run i
        have running' := coherent.running
        cases stage : copyStage cfg i tr with
        | fresh => rw [counted, stage] at reserved; cases reserved
        | checked => rw [counted, stage] at reserved; cases reserved
        | reserved place => rw [stage] at empty; cases empty
        | released => exact absurd stage running'

theorem clean_exit_after_forced_sell : ∃ tr c, c.shared.main = .exited 0 ∧ (CleanExit c ↔
    eager.copyTrade.maxPositions = 0 ∨
      ∀ (i : Nat) t, c.tasks[i]? = some t → t.finished = true ∨ 0 < copyReservations i tr) := by
  obtain ⟨tr, c, run, gone⟩ := System.script_reaches (copyMode eager false) (copyStart eager 0)
    (copyEntry 0 "alpha" ++ [.env .shutdownSignal] ++ go readyNet 0 7 ++
      [.env .drainCheck, .env .drainCheck])
    (fun _ c => c.shared.main = .exited 0) (by decide +kernel)
  have gone := of_decide_eq_true gone
  exact ⟨tr, c, gone, clean_exit_iff eager false 0 tr c run gone⟩

/-- A session that is spawned but has not run yet is not counted when `main` looks. -/
theorem exit_overtakes_entry : ¬ ∀ (cfg : Market.Config) (dryRun : Bool) (start : Instant)
    (tr : CopyTrace) (c : CopyConfig), CopyRun cfg dryRun start always tr c →
      c.shared.main = .exited 0 → CleanExit c := by
  intro claimed
  obtain ⟨tr, c, run, seen⟩ := System.script_reaches (copyMode eager false) (copyStart eager 0)
    [.env (.frame (alphaTrade someMint "alpha" "buy") 0), .env .shutdownSignal, .env .drainCheck,
      .env .drainCheck]
    (fun _ c => c.shared.main = .exited 0 && c.tasks[0]?.any fun t => !t.finished)
    (by decide +kernel)
  rw [Bool.and_eq_true, decide_eq_true_eq] at seen
  obtain ⟨gone, waiting⟩ := seen
  cases here : c.tasks[0]? with
  | none => simp [here] at waiting
  | some t =>
      rw [here, Option.any_some, Bool.not_eq_true'] at waiting
      obtain ⟨_, _, stuck⟩ := claimed eager false 0 tr c run gone 0 t here waiting
      have opening := copy_opening run 0 t here waiting (counted_out run gone here)
      exact stuck (opening.canStillBuy (exited_counter run 0 gone) (by decide))

end HadesPsTrader.Tasks
