/- Module: HadesPsTrader/Runs/SlotAccounting
   source: src/session.rs
   digest: The slot counter of graduation mode counts the sessions that hold a slot. -/

import HadesPsTrader.Interaction.Reservations
import HadesPsTrader.Runs.Graduation

set_option autoImplicit false
set_option relaxedAutoImplicit false

namespace HadesPsTrader.Tasks

open HadesPsTrader.Market HadesPsTrader.Chain HadesPsTrader.Interaction

section Diary

variable {cfg : Market.Config} {dryRun : Bool} {g : SessionDiary} {w : World} {l : SessionLocals}

theorem Coherent.reserved_iff (h : Coherent g l) : l.reserved = true ↔ g.slot ≠ .free := by
  unfold SessionLocals.reserved
  cases h.stance with
  | idle position selling buying slot _ _ => simp [position, selling, buying, slot]
  | opened pos position selling buying slot _ _ _ => simp [position, slot]
  | selling pos position selling buying slot _ _ _ => simp [selling, slot]
  | buying f position selling buying slot _ _ _ =>
      simp [position, selling, buying, slot, Option.isSome_iff_ne_none]

private theorem entry_slot (o : Op) (r : Reply o) (add : o.isFetchAdd = false)
    (sub : o.isFetchSub = false) : (g.entry cfg dryRun w l o r).slot = g.slot ∧
      (g.entry cfg dryRun w l o r).answer = g.answer := by
  cases o with
  | fetchAdd => cases add
  | fetchSub => cases sub
  | call c => cases c <;> exact ⟨rfl, rfl⟩
  | now site => cases site <;> exact ⟨rfl, rfl⟩
  | notify n => cases n <;> exact ⟨rfl, rfl⟩
  | spendCheck now amountSol => cases r <;> exact ⟨rfl, rfl⟩
  | _ => exact ⟨rfl, rfl⟩

/-- The session has a position, sells one, or read a count below the limit for its slot. -/
def SessionLocals.pastLimit (l : SessionLocals) (maxPositions : Nat) : Bool :=
  l.position.isSome || l.selling.isSome ||
    (l.buying.bind BuyFrame.slot).any (· < (maxPositions : Int))

/-- A slot is over the limit exactly when the count that its reservation read is. -/
def SessionDiary.Judged (cfg : Market.Config) (g : SessionDiary) : Prop :=
  ∀ s, g.answer = some s → g.slot ≠ .free →
    (g.slot = .overshoot ↔ (cfg.trading.maxPositions : Int) ≤ s)

theorem SessionDiary.Judged.next (judged : g.Judged cfg) (o : Op) (r : Reply o) :
    (g.next cfg dryRun w l o r).Judged cfg := by
  cases add : o.isFetchAdd with
  | true =>
    cases o with
    | fetchAdd =>
      intro s read _
      cases read
      change (if (cfg.trading.maxPositions : Int) ≤ r then Slot.overshoot else .admitted) =
        .overshoot ↔ _
      split_ifs with full
      · simp [full]
      · simp [full]
    | _ => cases add
  | false =>
    cases sub : o.isFetchSub with
    | true =>
      cases o with
      | fetchSub =>
        intro s _ held
        exact absurd rfl held
      | _ => cases sub
    | false =>
      have unmoved : (g.next cfg dryRun w l o r).slot = g.slot ∧
          (g.next cfg dryRun w l o r).answer = g.answer := entry_slot o r add sub
      obtain ⟨slot, answer⟩ := unmoved
      intro s read held
      have read : g.answer = some s := answer.symm.trans read
      rw [slot] at held ⊢
      exact judged s read held

theorem Coherent.judged_slot (h : Coherent g l) (judged : g.Judged cfg) {f : BuyFrame} {s : Int}
    (buying : l.buying = some f) (read : f.slot = some s) : g.slot ≠ .free ∧
      (g.slot = .overshoot ↔ (cfg.trading.maxPositions : Int) ≤ s) := by
  cases h.stance with
  | idle _ _ away _ _ _ => simp [away] at buying
  | opened pos _ _ away _ _ _ _ => simp [away] at buying
  | selling pos _ _ away _ _ _ _ => simp [away] at buying
  | buying f' _ _ here slot answer _ _ =>
      obtain rfl : f' = f := Option.some.inj (here.symm.trans buying)
      have held : g.slot ≠ .free := by simp [slot, read]
      exact ⟨held, judged s (answer s read) held⟩

theorem Coherent.pastLimit_iff (h : Coherent g l) (judged : g.Judged cfg) :
    l.pastLimit cfg.trading.maxPositions = true ↔ g.slot = .admitted := by
  unfold SessionLocals.pastLimit
  cases h.stance with
  | idle position selling buying slot _ _ => simp [position, selling, buying, slot]
  | opened pos position _ _ slot _ _ _ => simp [position, slot]
  | selling pos _ selling _ slot _ _ _ => simp [selling, slot]
  | buying f position selling buying slot _ _ _ =>
      cases read : f.slot with
      | none =>
          have free : g.slot = .free := slot.mpr read
          simp [position, selling, buying, read, free]
      | some s =>
          obtain ⟨held, decided⟩ := h.judged_slot judged buying read
          simp only [position, selling, buying, read, Option.isSome_none, Bool.or_self,
            Bool.false_or, Option.bind_some, Option.any_some, decide_eq_true_eq]
          rw [← not_le, ← decided]
          cases kind : g.slot with
          | free => exact absurd kind held
          | overshoot => simp
          | admitted => simp

/-- A session that read a count at the limit or above goes no further than its release. -/
theorem Permits.over_limit {o : Op} (permitted : Permits cfg g l o) (h : Coherent g l)
    {f : BuyFrame} (buying : l.buying = some f) (full : g.slot = .overshoot) : o = .fetchSub := by
  have apart : l.selling = none := by
    cases h.stance with
    | idle _ selling _ _ _ _ => exact selling
    | opened pos _ selling _ _ _ _ _ => exact selling
    | selling pos _ _ away _ _ _ _ => simp [away] at buying
    | buying f _ selling _ _ _ _ _ => exact selling
  cases o with
  | fetchSub => rfl
  | call c => cases c <;> simp [Permits, buying, apart] at permitted
  | now site => cases site <;> simp [Permits, full] at permitted
  | notify n => cases n <;> simp [Permits, full] at permitted
  | _ => simp [Permits, buying, apart, full] at permitted

def sessionBooking (cfg : Market.Config) : Booking SessionDiary World Op where
  reserves := Op.isFetchAdd
  releases := Op.isFetchSub
  holds g := g.slot ≠ .free
  admitted g := g.slot = .admitted
  count w := w.openPositions
  limit := cfg.trading.maxPositions
  held g admitted := by
    rw [decide_eq_true_eq] at admitted ⊢
    rw [admitted]
    exact Slot.noConfusion

variable (dryRun) in
theorem slot_step {i : Nat} {o : Op} {r : Reply o} {w' : World} (permitted : Permits cfg g l o)
    (granted : w.perform i o r = some w') :
    (sessionBooking cfg).Moves o g (g.next cfg dryRun w l o r) w w' := by
  cases add : o.isFetchAdd with
  | true =>
    cases o with
    | fetchAdd =>
      obtain ⟨rfl, rfl⟩ := World.perform_fetchAdd.mp granted
      have slot : (g.next cfg dryRun w l .fetchAdd w.openPositions).slot =
          if (cfg.trading.maxPositions : Int) ≤ w.openPositions then .overshoot
          else .admitted := rfl
      refine .reserve rfl rfl (decide_eq_false (not_not.mpr permitted.2)) ?_ ?_ rfl
      · apply decide_eq_true
        rw [slot]
        split_ifs
        · exact Slot.noConfusion
        · exact Slot.noConfusion
      · intro admitted
        have admitted := of_decide_eq_true admitted
        rw [slot] at admitted
        split_ifs at admitted with full
        exact not_le.mp full
    | _ => cases add
  | false =>
    cases sub : o.isFetchSub with
    | true =>
      cases o with
      | fetchSub =>
        obtain ⟨rfl, rfl⟩ := World.perform_fetchSub.mp granted
        exact .release rfl rfl (decide_eq_true permitted.1) rfl rfl
      | _ => cases sub
    | false =>
      have kept : (g.next cfg dryRun w l o r).slot = g.slot := (entry_slot o r add sub).1
      refine .neither add sub ?_ ?_ (World.perform_openPositions granted add sub)
      · exact congrArg (fun slot => decide (slot ≠ Slot.free)) kept
      · exact congrArg (fun slot => decide (slot = Slot.admitted)) kept

end Diary

section Runs

variable {cfg : Market.Config} {dryRun : Bool} {start : Instant} {admits : GradAdmit}
  {tr : GradTrace} {c : GradConfig}

theorem graduation_booked : (sessionBooking cfg).Kept (graduation cfg dryRun)
    (sessionProtocol cfg dryRun) {} admits (graduationStart cfg start) where
  unspawned := rfl
  zero := rfl
  fresh := rfl
  step := by
    intro tr c before i l o r s' resume pending granted
    exact slot_step dryRun (session_permits before pending) granted
  env := by
    intro s e s' ts granted
    rcases graduation_env_cases granted with ⟨ev, _, rfl, _⟩ | ⟨moved, _⟩
    · rfl
    · exact (World.background_common moved).2.1

theorem counter_eq (run : GradRun cfg dryRun start admits tr c) : c.shared.openPositions =
    tally c.tasks.length (fun i => (diary cfg dryRun i tr).slot ≠ .free) := by
  have counted := graduation_booked.counter_eq run
  simp only [sessionBooking, decide_eq_true_eq] at counted
  exact counted

theorem admitted_le (run : GradRun cfg dryRun start admits tr c) :
    tally c.tasks.length (fun i => (diary cfg dryRun i tr).slot = .admitted) ≤
      cfg.trading.maxPositions := by
  have bounded := graduation_booked.admitted_le run
  simp only [sessionBooking, decide_eq_true_eq] at bounded
  exact bounded

theorem diary_judged (run : GradRun cfg dryRun start admits tr c) (i : Nat) :
    (diary cfg dryRun i tr).Judged cfg := by
  apply run.watched (sessionProtocol cfg dryRun) {} i fun g _ => g.Judged cfg
  · intro s read
    cases read
  · intro g w w' l o r judged _
    exact judged.next o r
  · intro g c e c' judged _
    exact judged

theorem unspawned_free (run : GradRun cfg dryRun start admits tr c) {i : Nat}
    (new : c.tasks.length ≤ i) : (diary cfg dryRun i tr).slot = .free := by
  rw [diary, Run.ghost_unspawned _ _ run i new]

def reservations (i : Nat) (tr : GradTrace) : Nat := performed i Op.isFetchAdd tr

def releases (i : Nat) (tr : GradTrace) : Nat := performed i Op.isFetchSub tr

theorem reservations_eq (run : GradRun cfg dryRun start admits tr c) (i : Nat) :
    reservations i tr =
      releases i tr + if (diary cfg dryRun i tr).slot = .free then 0 else 1 := by
  have paired := graduation_booked.paired run i
  simp only [sessionBooking, decide_eq_true_eq] at paired
  rw [← ite_not]
  exact paired

theorem failed_exit_keeps (run : GradRun cfg dryRun start always tr c) {i : Nat}
    {l : SessionLocals} {p : SellAllParams} {answers : Nat → SubmitAnswers} {c' : GradConfig}
    (moved : Step (graduation cfg dryRun) c (.perform i l (.sellAll p) answers) c')
    (failed : soldOk cfg dryRun p answers = false)
    (exit : (diary cfg dryRun i tr).reason.any SellReason.isExit = true) :
    ∃ t, c'.tasks[i]? = some t ∧ t.locals.position.isSome ∧ t.locals.reserved := by
  have run' := run.step trivial moved
  cases moved with
  | @perform _ _ _ resume _ s' pending granted =>
      have spawned : i < c.tasks.length := (List.getElem?_eq_some_iff.mp pending).1
      have here : (c.tasks.set i (resume answers))[i]? = some (resume answers) := by
        simp [spawned]
      have holding : (diary cfg dryRun i tr).holding = true :=
        (session_stands run pending).holding_of_sellAll (session_permits run pending)
      have coherent := session_coherent run' here
      rw [diary_self] at coherent
      refine ⟨_, here, ?_⟩
      -- the diary still holds the position, so the session stands with it open
      cases coherent.stance with
      | opened pos position _ _ _ _ _ _ => simp [SessionLocals.reserved, position]
      | idle _ _ _ _ gone _ =>
          simp [SessionDiary.entry, SessionDiary.sale, holding, failed, exit] at gone
      | selling pos _ _ _ _ gone _ _ =>
          simp [SessionDiary.entry, SessionDiary.sale, holding, failed, exit] at gone
      | buying f _ _ _ _ _ gone _ =>
          simp [SessionDiary.entry, SessionDiary.sale, holding, failed, exit] at gone

structure SlotsBalanced (cfg : Market.Config) (dryRun : Bool) (tr : GradTrace) (c : GradConfig) :
    Prop where
  /-- The counter is the number of sessions that hold a position, sell one that they took, or are
  inside `try_buy` with a slot. -/
  counter : c.shared.openPositions = (c.tasks.countP fun t => t.locals.reserved : Nat)
  /-- At most `max_positions` sessions are past the limit test and have not released yet, those that
  hold or sell a position among them. -/
  limit : (c.tasks.countP fun t => t.locals.pastLimit cfg.trading.maxPositions) ≤
    cfg.trading.maxPositions
  /-- A session whose `fetch_add` read a full counter goes no further than its release. -/
  over_limit : ∀ (i : Nat) (l : SessionLocals) o resume f slot,
    c.tasks[i]? = some (.op l o resume) → l.buying = some f → f.slot = some slot →
    (cfg.trading.maxPositions : Int) ≤ slot → o = .fetchSub
  /-- Every reservation is released once, or still held by its session. -/
  paired : ∀ i t, c.tasks[i]? = some t →
    reservations i tr = releases i tr + if t.locals.reserved then 1 else 0
  /-- A session that has returned released all that it reserved. -/
  returned : ∀ i t, c.tasks[i]? = some t → t.finished = true → reservations i tr = releases i tr
  /-- A release finds a counted slot. After a sale it follows a success, or the failure of a sale
  that is not a PnL exit. -/
  release : ∀ i l resume, c.tasks[i]? = some (.op l .fetchSub resume) →
    1 ≤ c.shared.openPositions ∧ l.reserved = true ∧ (l.selling.isSome →
      ∃ ok reason, (diary cfg dryRun i tr).verdict = some ok ∧
        (diary cfg dryRun i tr).reason = some reason ∧ (ok ∨ ¬ SellReason.isExit reason))
  /-- A failed PnL sale keeps its position and its slot. -/
  kept : ∀ i l p answers c', Step (graduation cfg dryRun) c (.perform i l (.sellAll p) answers) c' →
    soldOk cfg dryRun p answers = false →
    (diary cfg dryRun i tr).reason.any SellReason.isExit = true →
    ∃ t, c'.tasks[i]? = some t ∧ t.locals.position.isSome ∧ t.locals.reserved
  /-- When all sessions have ended nothing is counted. -/
  ended : (∀ t ∈ c.tasks, t.finished) → c.shared.openPositions = 0

theorem finished_free (run : GradRun cfg dryRun start admits tr c) {i : Nat}
    {t : TaskProc SessionLocals} (here : c.tasks[i]? = some t) (finished : t.finished = true) :
    t.locals.reserved = false := by
  have ended := session_ended run here finished
  simp [SessionLocals.reserved, ended.position, ended.selling, ended.buying]

theorem slots_balanced (cfg : Market.Config) (dryRun : Bool) (start : Instant) (tr : GradTrace)
    (c : GradConfig) (run : GradRun cfg dryRun start always tr c) :
    SlotsBalanced cfg dryRun tr c := by
  have reserved {i : Nat} {t : TaskProc SessionLocals} (here : c.tasks[i]? = some t) :
      t.locals.reserved = true ↔ (diary cfg dryRun i tr).slot ≠ .free :=
    (session_coherent run here).reserved_iff
  have counter : c.shared.openPositions = (c.tasks.countP fun t => t.locals.reserved : Nat) := by
    rw [counter_eq run, countP_eq_tally]
    congr 1
    refine tally_congr ?_
    intro i spawned
    rw [List.getElem?_eq_getElem spawned, Option.any_some,
      reserved (List.getElem?_eq_getElem spawned)]
  have paired (i : Nat) (t : TaskProc SessionLocals) (here : c.tasks[i]? = some t) :
      reservations i tr = releases i tr + if t.locals.reserved then 1 else 0 := by
    rw [reservations_eq run i]
    have slot := reserved here
    by_cases free : (diary cfg dryRun i tr).slot = .free
    · simp [free, slot]
    · simp [free, slot.mpr free]
  constructor
  case counter => exact counter
  case limit =>
    have bounded := admitted_le run
    rw [countP_eq_tally]
    refine le_of_eq_of_le (tally_congr ?_) bounded
    intro i spawned
    have here := List.getElem?_eq_getElem spawned
    rw [here, Option.any_some, (session_coherent run here).pastLimit_iff (diary_judged run i)]
  case over_limit =>
    intro i l o resume f slot here buying read full
    have coherent := session_stands run here
    obtain ⟨_, decided⟩ := coherent.judged_slot (diary_judged run i) buying read
    exact (session_permits run here).over_limit coherent buying (decided.mpr full)
  case paired => exact paired
  case returned =>
    intro i t here finished
    rw [paired i t here, finished_free run here finished]
    simp
  case release =>
    intro i l resume here
    obtain ⟨held, sale⟩ := session_permits run here
    have spawned : i < c.tasks.length := (List.getElem?_eq_some_iff.mp here).1
    have positive : 0 < tally c.tasks.length (fun i => (diary cfg dryRun i tr).slot ≠ .free) :=
      tally_pos spawned held
    have counted := counter_eq run
    exact ⟨by omega, (reserved here).mpr held, sale⟩
  case kept =>
    intro i l p answers c' moved failed exit
    exact failed_exit_keeps run moved failed exit
  case ended =>
    intro done
    rw [counter, List.countP_eq_zero.mpr, Nat.cast_zero]
    intro t mem held
    obtain ⟨i, here⟩ := List.getElem?_of_mem mem
    rw [finished_free run here (done t mem)] at held
    cases held

end Runs

def oneSlot : Market.Config :=
  { eager with trading := { eager.trading with maxPositions := 1 } }

/-- One session holds a position, and another has just reserved a slot over the limit. -/
theorem slots_balanced_one_over : ∃ tr c, c.shared.openPositions = 2 ∧
    (c.tasks.countP fun t => t.locals.pastLimit 1) = 1 ∧ SlotsBalanced oneSlot false tr c := by
  obtain ⟨tr, c, run, counted⟩ := System.script_reaches (graduation oneSlot false)
    (graduationStart oneSlot 0)
    (warmUp 0 ++ buyTick readyNet 0 9 ++ warmUp 1 ++ buyTick readyNet 1 4)
    (fun _ c => c.shared.openPositions = 2 ∧ (c.tasks.countP fun t => t.locals.pastLimit 1) = 1)
    (by decide +kernel)
  obtain ⟨two, one⟩ := of_decide_eq_true counted
  exact ⟨tr, c, two, one, slots_balanced oneSlot false 0 tr c run⟩

end HadesPsTrader.Tasks
