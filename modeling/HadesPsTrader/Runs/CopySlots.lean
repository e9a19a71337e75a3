/- Module: HadesPsTrader/Runs/CopySlots
   source: src/copy_session.rs, src/main.rs
   digest: The slot counter of copy mode counts the sessions between reservation and release. -/

import HadesPsTrader.Interaction.Reservations
import HadesPsTrader.Runs.CopyMode
import HadesPsTrader.Runs.CopyPieces

set_option autoImplicit false
set_option relaxedAutoImplicit false

namespace HadesPsTrader.Tasks

open HadesPsTrader.Market HadesPsTrader.Chain HadesPsTrader.Interaction

/-- How far a copy session is with its slot: before the daily cap check, past it, between
`fetch_add` and `fetch_sub` with the counter that it found, or behind the release. -/
inductive CopyStage
  | fresh
  | checked
  | reserved (place : Int)
  | released
  deriving DecidableEq

namespace CopyStage

/-- The counter that `fetch_add` returned, until the release. -/
def place? : CopyStage → Option Int
  | .fresh => none
  | .checked => none
  | .reserved place => some place
  | .released => none

theorem place?_eq_some {g : CopyStage} {place : Int} :
    g.place? = some place ↔ g = .reserved place := by
  cases g <;> simp [place?]

def reservations : CopyStage → Nat
  | .fresh => 0
  | .checked => 0
  | .reserved _ => 1
  | .released => 1

def next (g : CopyStage) : (o : Op) → Reply o → CopyStage
  | .spendCheck _ _, .ok () => .checked
  | .fetchAdd, place => .reserved place
  | .fetchSub, _ => .released
  | _, _ => g

def permits (cfg : Market.Config) (g : CopyStage) : Op → Prop
  | .now .spendCheck => g = .fresh
  | .spendCheck _ _ => g = .fresh
  | .fetchAdd => g = .checked
  | .fetchSub => ∃ place, g = .reserved place
  | _ => ∃ place, g = .reserved place ∧ place < cfg.copyTrade.maxPositions

/-- The locals hold the slot, and no position without one; nothing is left to do behind the
release. -/
structure Coherent (g : CopyStage) (l : CopyLocals) : Prop where
  slot : l.slot = g.place?
  empty : g.place? = none → l.boughtAt = none
  running : g ≠ .released

/-- How a copy session returns: without a slot. -/
structure Ended (g : CopyStage) (l : CopyLocals) : Prop where
  stage : g = .fresh ∨ g = .released
  slot : l.slot = none
  closed : l.boughtAt = none

end CopyStage

def slotProtocol (cfg : Market.Config) : Protocol CopyStage World CopyLocals Op Reply where
  coherent g l := g.Coherent l
  guard g _ o := g.permits cfg o
  valid _ _ _ _ _ := True
  next g _ _ o r := g.next o r

section Discipline

variable {cfg : Market.Config} {dryRun : Bool} {α : Type} {place : Int} {l : CopyLocals}

/-- The operations of a session that has its slot and goes on with it. -/
def Op.goesOn (o : Op) : Prop := o.isAside = true ∨ ∃ mirrorOpen, o = .copySelect mirrorOpen

theorem goesOn_of_isExit (o : Op) (exit : o.isExit = true) : o.goesOn :=
  .inl (isAside_of_isExit o exit)

theorem goesOn_permitted {o : Op} (asked : o.goesOn)
    (below : place < cfg.copyTrade.maxPositions) :
    (CopyStage.reserved place).permits cfg o := by
  have here : ∃ place', CopyStage.reserved place = .reserved place' ∧
      place' < cfg.copyTrade.maxPositions := ⟨place, rfl, below⟩
  rcases asked with aside | ⟨mirrorOpen, rfl⟩
  · cases o with
    | now site => cases site <;> first | exact here | cases aside
    | fetchAdd => cases aside
    | fetchSub => cases aside
    | spendCheck now amountSol => cases aside
    | _ => exact here
  · exact here

theorem releases_over_cap {o : Op} (full : (cfg.copyTrade.maxPositions : Int) ≤ place)
    (permitted : (CopyStage.reserved place).permits cfg o) : o = .fetchSub := by
  have below : ¬ ∃ place', CopyStage.reserved place = .reserved place' ∧
      place' < (cfg.copyTrade.maxPositions : Int) := by
    rintro ⟨place', same, lt⟩
    cases same
    exact absurd lt (not_lt.mpr full)
  cases o with
  | fetchSub => rfl
  | fetchAdd => cases permitted
  | spendCheck now amountSol => cases permitted
  | now site => cases site <;> first | exact absurd permitted below | cases permitted
  | _ => exact absurd permitted below

theorem goesOn_idle {o : Op} {r : Reply o} (asked : o.goesOn) (g : CopyStage) :
    g.next o r = g := by
  rcases asked with aside | ⟨mirrorOpen, rfl⟩
  · cases o with
    | fetchAdd => cases aside
    | fetchSub => cases aside
    | spendCheck now amountSol => cases aside
    | _ => rfl
  · rfl

theorem stage_steady {m : CopyM α} {Q : CopyStage → CopyLocals → α → Prop}
    (calm : Async.Steady World Op.goesOn (fun l => l.slot = some place) m)
    (slot : l.slot = some place) (below : place < cfg.copyTrade.maxPositions)
    (done : ∀ l a, l.slot = some place → Q (.reserved place) l a) :
    Async.wp (slotProtocol cfg) m Q (.reserved place) l := by
  apply calm.wp slot
  · intro l slot
    exact ⟨slot, nofun, nofun⟩
  · intro l o _ asked
    exact goesOn_permitted asked below
  · intro s l o r asked
    exact goesOn_idle asked _
  · exact done

theorem stage_release (slot : l.slot = some place) :
    Async.wp (slotProtocol cfg) releaseCopySlot (fun g l _ => g.Ended l) (.reserved place) l := by
  apply Async.wp_step
  · exact ⟨slot, nofun, nofun⟩
  · exact ⟨place, rfl⟩
  intro w r _
  exact ⟨.inr rfl, rfl, rfl⟩

theorem copyRound_goesOn : Async.Steady World Op.goesOn (fun l => l.slot = some place)
    (copyRound cfg dryRun) := by
  apply copyRound_steady
  · exact goesOn_of_isExit
  · intro l rugGuard peakPct lastPrice sold slot
    exact slot
  · intro mirrorOpen
    exact .inr ⟨mirrorOpen, rfl⟩
  · intro l slot
    exact slot

theorem stage_monitorToExit {boughtAt : Instant} {price : ℚ} (slot : l.slot = some place)
    (below : place < cfg.copyTrade.maxPositions) :
    Async.wp (slotProtocol cfg) (monitorToExit cfg dryRun boughtAt price)
      (fun g l _ => g.Ended l) (.reserved place) l := by
  rw [monitorToExit, Async.wp_assign_bind, Async.wp_bind]
  apply stage_steady (Async.Steady.perform (.inl rfl)) (by exact slot) below
  intro l₁ _ slot₁
  rw [Async.wp_bind]
  apply stage_steady (Async.Steady.loop copyRound_goesOn) slot₁ below
  intro l₂ _ slot₂
  rw [Async.wp_locals_bind]
  split_ifs
  · exact stage_release slot₂
  · rw [Async.wp_bind]
    apply stage_steady (doSell_steady cfg dryRun goesOn_of_isExit _ _) slot₂ below
    intro l₃ _ slot₃
    exact stage_release slot₃

theorem stage_establish {mint : Pubkey} {buyRes : Except BoxError (Option Signature)}
    (slot : l.slot = some place) (below : place < cfg.copyTrade.maxPositions) :
    Async.wp (slotProtocol cfg) (establish cfg dryRun mint buyRes) (fun g l _ => g.Ended l)
      (.reserved place) l := by
  rw [establish, Async.wp_locals_bind, Async.wp_bind]
  apply stage_steady (Async.Steady.perform (.inl rfl)) slot below
  intro l₁ _ slot₁
  match buyRes with
  | .ok (some sig) =>
      dsimp only
      rw [Async.wp_bind]
      apply stage_steady (Async.Steady.perform (.inl rfl)) slot₁ below
      intro l₂ boughtAt slot₂
      rw [Async.wp_assign_bind, Async.wp_bind]
      apply stage_steady (fetchBalance_steady (.inl rfl)) (by exact slot₂) below
      intro l₃ balance slot₃
      match balance with
      | .error e =>
          dsimp only
          rw [Async.wp_bind]
          apply stage_steady (Async.Steady.perform (.inl rfl)) slot₃ below
          intro l₄ _ slot₄
          exact stage_release slot₄
      | .ok b =>
          dsimp only
          split_ifs
          · exact stage_release slot₃
          · rw [Async.wp_bind]
            apply stage_steady (Async.Steady.perform (.inl rfl)) slot₃ below
            intro l₄ _ slot₄
            rw [Async.wp_bind]
            apply stage_steady (Async.Steady.perform (.inl rfl)) slot₄ below
            intro l₅ _ slot₅
            exact stage_monitorToExit slot₅ below
  | .ok none =>
      dsimp only
      rw [Async.wp_bind]
      apply stage_steady (Async.Steady.perform (.inl rfl)) slot₁ below
      intro l₂ _ slot₂
      rw [Async.wp_bind]
      apply stage_steady (firstPrice_steady (.inl rfl)) slot₂ below
      intro l₃ first slot₃
      match first with
      | none => exact stage_release slot₃
      | some price =>
          dsimp only
          rw [Async.wp_bind]
          apply stage_steady (Async.Steady.perform (.inl rfl)) slot₃ below
          intro l₄ boughtAt slot₄
          exact stage_monitorToExit slot₄ below
  | .error e => exact stage_release slot₁

theorem stage_copyHandle (alpha : AlphaTrade) :
    Async.wp (slotProtocol cfg) (copyHandle cfg dryRun) (fun g l _ => g.Ended l) .fresh
      { alpha := alpha } := by
  rw [copyHandle, Async.wp_locals_bind]
  dsimp only
  cases Pubkey.fromStr alpha.mint with
  | none => exact ⟨.inl rfl, rfl, rfl⟩
  | some mint =>
      dsimp only
      apply Async.wp_step
      · exact ⟨rfl, fun _ => rfl, nofun⟩
      · exact rfl
      intro w₁ now _
      apply Async.wp_step
      · exact ⟨rfl, fun _ => rfl, nofun⟩
      · exact rfl
      intro w₂ allowed _
      match allowed with
      | .error spent => exact ⟨.inl rfl, rfl, rfl⟩
      | .ok () =>
          dsimp only
          apply Async.wp_step
          · exact ⟨rfl, fun _ => rfl, nofun⟩
          · exact rfl
          intro w₃ slot _
          rw [Async.wp_assign_bind]
          split_ifs with full
          · exact stage_release rfl
          · rw [Async.wp_bind]
            apply stage_steady (traderBuy_steady (.inl rfl)) rfl (not_le.mp full)
            intro l₁ buyRes slot₁
            exact stage_establish slot₁ (not_le.mp full)

end Discipline

def copyBooking (cfg : Market.Config) : Booking CopyStage World Op where
  reserves := Op.isFetchAdd
  releases := Op.isFetchSub
  holds g := g.place?.isSome
  admitted g := g.place?.any (· < (cfg.copyTrade.maxPositions : Int))
  count w := w.openPositions
  limit := cfg.copyTrade.maxPositions
  held g admitted := by
    cases here : g.place? with
    | none => simp [here] at admitted
    | some place => rfl

section Steps

variable {cfg : Market.Config} {dryRun : Bool} {g : CopyStage} {w w' : World}

theorem CopyStage.next_kept {o : Op} {r : Reply o} (add : o.isFetchAdd = false)
    (sub : o.isFetchSub = false) (permitted : g.permits cfg o) :
    (g.next o r).place? = g.place? := by
  cases o with
  | fetchAdd => cases add
  | fetchSub => cases sub
  | spendCheck now amountSol =>
      obtain rfl : g = .fresh := permitted
      match r with
      | .ok () => rfl
      | .error spent => rfl
  | _ => rfl

theorem copySlot_step {i : Nat} {o : Op} {r : Reply o} (permitted : g.permits cfg o)
    (granted : w.perform i o r = some w') : (copyBooking cfg).Moves o g (g.next o r) w w' := by
  cases add : o.isFetchAdd with
  | true =>
      cases o with
      | fetchAdd =>
          obtain ⟨rfl, rfl⟩ := World.perform_fetchAdd.mp granted
          obtain rfl : g = .checked := permitted
          refine .reserve rfl rfl rfl rfl ?_ rfl
          intro admitted
          exact of_decide_eq_true admitted
      | _ => cases add
  | false =>
      cases sub : o.isFetchSub with
      | true =>
          cases o with
          | fetchSub =>
              obtain ⟨rfl, rfl⟩ := World.perform_fetchSub.mp granted
              obtain ⟨place, rfl⟩ := permitted
              exact .release rfl rfl rfl rfl rfl
          | _ => cases sub
      | false =>
          have kept := g.next_kept (r := r) add sub permitted
          refine .neither add sub ?_ ?_ (World.perform_openPositions granted add sub)
          · exact congrArg Option.isSome kept
          · exact congrArg (Option.any _) kept

theorem CopyStage.next_reservations {o : Op} {r : Reply o} (permitted : g.permits cfg o) :
    (g.next o r).reservations = g.reservations + if o.isFetchAdd then 1 else 0 := by
  cases o with
  | fetchAdd =>
      obtain rfl : g = .checked := permitted
      rfl
  | fetchSub =>
      obtain ⟨place, rfl⟩ := permitted
      rfl
  | spendCheck now amountSol =>
      obtain rfl : g = .fresh := permitted
      match r with
      | .ok () => rfl
      | .error spent => rfl
  | _ => rfl

theorem copyMode_openPositions {e : Env} {ts : List (TaskProc CopyLocals)}
    (h : (copyMode cfg dryRun).env w e = some (w', ts)) : w'.openPositions = w.openPositions := by
  cases copyMode_moves h with
  | refused _ _ _ =>
      obtain ⟨clock, recent, recentWallet, rest⟩ := gateFrame_rest w cfg.copyTrade _ _
      rw [rest]
  | entered _ _ _ _ =>
      obtain ⟨clock, recent, recentWallet, rest⟩ := gateFrame_rest w cfg.copyTrade _ _
      rw [rest]
  | background _ moved => exact (World.background_common moved).2.1
  | _ => rfl

end Steps

section Runs

variable {cfg : Market.Config} {dryRun : Bool} {start : Instant} {admits : CopyAdmit}
  {tr : CopyTrace} {c : CopyConfig} {i : Nat} {t : TaskProc CopyLocals}

def copyStage (cfg : Market.Config) (i : Nat) (tr : CopyTrace) : CopyStage :=
  ghost (slotProtocol cfg) .fresh i tr

section Stage

variable {j : Nat} {w : World} {l : CopyLocals} {o : Op} {r : Reply o}

theorem copyStage_self : copyStage cfg i (tr ++ [(w, .perform i l o r)]) =
    (copyStage cfg i tr).next o r :=
  ghost_perform_self i tr w l o r

theorem copyStage_other (other : j ≠ i) :
    copyStage cfg i (tr ++ [(w, .perform j l o r)]) = copyStage cfg i tr :=
  ghost_perform_other other tr w l o r

theorem copyStage_unroll : copyStage cfg i (tr ++ [(w, .unroll j)]) = copyStage cfg i tr :=
  ghost_unroll i j tr w

theorem copyStage_env (e : Env) : copyStage cfg i (tr ++ [(w, .env e)]) = copyStage cfg i tr :=
  ghost_env i tr w e

end Stage

theorem copies_stage (run : CopyRun cfg dryRun start admits tr c) (here : c.tasks[i]? = some t) :
    Proc.wp (slotProtocol cfg) t (fun g l _ => g.Ended l) (copyStage cfg i tr) := by
  refine copy_protocol (slotProtocol cfg) _ .fresh stage_copyHandle ?_ run i t here
  intros
  trivial

theorem copyStage_coherent (run : CopyRun cfg dryRun start admits tr c)
    (here : c.tasks[i]? = some t) (running : t.finished = false) :
    (copyStage cfg i tr).Coherent t.locals :=
  Proc.coherent_of_running (copies_stage run here) running

theorem copyStage_ended (run : CopyRun cfg dryRun start admits tr c)
    (here : c.tasks[i]? = some t) (finished : t.finished = true) :
    (copyStage cfg i tr).Ended t.locals := by
  obtain ⟨_, ended⟩ := Proc.returned_of_finished (copies_stage run here) finished
  exact ended

theorem copyStage_slot (run : CopyRun cfg dryRun start admits tr c)
    (here : c.tasks[i]? = some t) : t.locals.slot = (copyStage cfg i tr).place? := by
  cases running : t.finished with
  | false => exact (copyStage_coherent run here running).slot
  | true =>
      obtain ⟨stage, slot, _⟩ := copyStage_ended run here running
      rw [slot]
      rcases stage with fresh | released
      · rw [fresh, CopyStage.place?]
      · rw [released, CopyStage.place?]

theorem copyStage_permits (run : CopyRun cfg dryRun start admits tr c) {l : CopyLocals} {o : Op}
    {resume : Reply o → TaskProc CopyLocals} (here : c.tasks[i]? = some (.op l o resume)) :
    (copyStage cfg i tr).permits cfg o :=
  (copies_stage run here).2.1

theorem copyMode_booked :
    (copyBooking cfg).Kept (copyMode cfg dryRun) (slotProtocol cfg) .fresh admits
      (copyStart cfg start) where
  unspawned := rfl
  zero := rfl
  fresh := rfl
  step := by
    intro tr c before i l o r s' resume pending granted
    exact copySlot_step (copyStage_permits before pending) (copyMode_exec granted)
  env := by
    intro s e s' ts granted
    exact copyMode_openPositions granted

def copyReservations (i : Nat) (tr : CopyTrace) : Nat := performed i Op.isFetchAdd tr

def copyReleases (i : Nat) (tr : CopyTrace) : Nat := performed i Op.isFetchSub tr

theorem copyReservations_eq (run : CopyRun cfg dryRun start admits tr c) (i : Nat) :
    copyReservations i tr = (copyStage cfg i tr).reservations := by
  apply run.invariant (fun tr _ => copyReservations i tr = (copyStage cfg i tr).reservations)
  · rfl
  intro tr c e c' before counted _ moved
  cases moved with
  | @perform j l o resume r s' pending granted =>
      rcases eq_or_ne j i with rfl | other
      · rw [copyReservations, performed_self, ← copyReservations, counted, copyStage_self,
          CopyStage.next_reservations (copyStage_permits before pending)]
      · rw [copyReservations, performed_other other, ← copyReservations, counted,
          copyStage_other other]
  | unroll pending =>
      rw [copyReservations, performed_unroll, ← copyReservations, counted, copyStage_unroll]
  | env granted =>
      rw [copyReservations, performed_env, ← copyReservations, counted, copyStage_env]

structure CopySlotsBalanced (cfg : Market.Config) (tr : CopyTrace) (c : CopyConfig) : Prop where
  /-- The counter is the number of sessions between their `fetch_add` and their `fetch_sub`. -/
  counter : c.shared.openPositions = (c.tasks.countP fun t => t.locals.slot.isSome : Nat)
  /-- A release finds its own slot counted: the counter never goes below zero. -/
  release : ∀ (i : Nat) (l : CopyLocals) resume, c.tasks[i]? = some (.op l .fetchSub resume) →
    1 ≤ c.shared.openPositions ∧ l.slot.isSome
  /-- At most `max_positions` sessions are past the slot test. -/
  limit : (c.tasks.countP fun t => t.locals.slot.any (· < (cfg.copyTrade.maxPositions : Int))) ≤
    cfg.copyTrade.maxPositions
  /-- A session over the cap goes no further than its release. -/
  over_cap : ∀ (i : Nat) (l : CopyLocals) o resume slot, c.tasks[i]? = some (.op l o resume) →
    l.slot = some slot → (cfg.copyTrade.maxPositions : Int) ≤ slot → o = .fetchSub
  /-- A session reserves once at most, and its slot is released once or still held. -/
  paired : ∀ i t, c.tasks[i]? = some t → copyReservations i tr ≤ 1 ∧
    copyReservations i tr = copyReleases i tr + if t.locals.slot.isSome then 1 else 0
  /-- A session that has returned, on whatever path, released what it reserved. -/
  returned : ∀ i t, c.tasks[i]? = some t → t.finished = true →
    copyReservations i tr = copyReleases i tr
  /-- When all sessions have returned nothing is counted. -/
  ended : (∀ t ∈ c.tasks, t.finished) → c.shared.openPositions = 0

theorem copy_counter_eq (run : CopyRun cfg dryRun start admits tr c) :
    c.shared.openPositions = (c.tasks.countP fun t => t.locals.slot.isSome : Nat) := by
  have counted := copyMode_booked.counter_eq run
  rw [countP_eq_tally]
  refine counted.trans (congrArg Nat.cast (tally_congr ?_))
  intro i spawned
  have here := List.getElem?_eq_getElem spawned
  rw [here, Option.any_some, copyStage_slot run here]
  rfl

theorem copy_slots_balanced (cfg : Market.Config) (dryRun : Bool) (start : Instant)
    (tr : CopyTrace) (c : CopyConfig) (run : CopyRun cfg dryRun start always tr c) :
    CopySlotsBalanced cfg tr c := by
  have paired (i : Nat) (t : TaskProc CopyLocals) (here : c.tasks[i]? = some t) :
      copyReservations i tr = copyReleases i tr + if t.locals.slot.isSome then 1 else 0 := by
    have booked := copyMode_booked.paired run i
    rw [copyStage_slot run here]
    exact booked
  constructor
  case counter => exact copy_counter_eq run
  case release =>
    intro i l resume here
    obtain ⟨place, reserved⟩ := copyStage_permits run here
    have spawned : i < c.tasks.length := (List.getElem?_eq_some_iff.mp here).1
    have slot : l.slot = (copyStage cfg i tr).place? := copyStage_slot run here
    have held : (copyBooking cfg).holds (copyStage cfg i tr) = true := by
      rw [reserved]
      rfl
    refine ⟨copyMode_booked.one_le run spawned held, ?_⟩
    rw [slot]
    exact held
  case limit =>
    have bounded := copyMode_booked.admitted_le run
    rw [countP_eq_tally]
    refine le_of_eq_of_le (tally_congr ?_) bounded
    intro i spawned
    have here := List.getElem?_eq_getElem spawned
    rw [here, Option.any_some, copyStage_slot run here]
    rfl
  case over_cap =>
    intro i l o resume slot here held full
    have stage : l.slot = (copyStage cfg i tr).place? := copyStage_slot run here
    have permitted := copyStage_permits run here
    have reserved : copyStage cfg i tr = .reserved slot :=
      CopyStage.place?_eq_some.mp (stage.symm.trans held)
    rw [reserved] at permitted
    exact releases_over_cap full permitted
  case paired =>
    intro i t here
    refine ⟨?_, paired i t here⟩
    rw [copyReservations_eq run]
    cases copyStage cfg i tr <;> simp [CopyStage.reservations]
  case returned =>
    intro i t here finished
    rw [paired i t here, (copyStage_ended run here finished).slot]
    rfl
  case ended =>
    intro done
    rw [copy_counter_eq run, List.countP_eq_zero.mpr, Nat.cast_zero]
    intro t mem held
    obtain ⟨i, here⟩ := List.getElem?_of_mem mem
    rw [(copyStage_ended run here (done t mem)).slot] at held
    cases held

end Runs

theorem copy_slots_balanced_one_entry : ∃ tr c, c.shared.openPositions = 1 ∧
    CopySlotsBalanced eager tr c := by
  obtain ⟨tr, c, run, counted⟩ := System.script_reaches (copyMode eager false)
    (copyStart eager 0) (copyEntry 0 "alpha") (fun _ c => c.shared.openPositions = 1)
    (by decide +kernel)
  exact ⟨tr, c, of_decide_eq_true counted, copy_slots_balanced eager false 0 tr c run⟩

end HadesPsTrader.Tasks
