/- Module: HadesPsTrader/Runs/SpendCap
   source: src/session.rs, src/copy_session.rs, src/dip_buy.rs
   digest: When the 24h spend cap holds among concurrent sessions. -/

import HadesPsTrader.Market.SpendWindow
import HadesPsTrader.Runs.CopyMode
import HadesPsTrader.Runs.Graduation

set_option autoImplicit false
set_option relaxedAutoImplicit false

namespace HadesPsTrader.Tasks

open HadesPsTrader.Market HadesPsTrader.Chain HadesPsTrader.Interaction

section Log

variable {L : Type}

def recordAmount : Label L Op Reply Env → Option ℚ
  | .perform _ _ (.spendRecord amountSol) _ => some amountSol
  | _ => none

/-- All amounts recorded so far, with their times. -/
def spendLog (tr : Trace World L Op Reply Env) : List (Instant × ℚ) :=
  tr.filterMap fun x => (recordAmount x.2).map fun amountSol => (x.1.clock, amountSol)

def day : Duration := fromSecs (24 * 60 * 60)

/-- The amounts recorded in the 24 hours before `now` are within the cap. -/
def CapKept (cap : ℚ) (tr : Trace World L Op Reply Env) (now : Instant) : Prop :=
  spentWithin day (spendLog tr) now ≤ cap

/-- The cap was kept in every state of a run. -/
def CapKeptThroughout (cap : ℚ) (tr : Trace World L Op Reply Env)
    (c : Interaction.Config World L Op Reply) : Prop :=
  CapKept cap tr c.shared.clock ∧
    ∀ tr₁ x tr₂, tr = tr₁ ++ x :: tr₂ → CapKept cap tr₁ x.1.clock

/-- Whenever an amount was recorded, the check, made again at that moment, would have passed. -/
def RecordsStillFit (tr : Trace World L Op Reply Env) : Prop :=
  ∀ x ∈ tr, ∀ amountSol ∈ recordAmount x.2, (x.1.tracker.check x.1.clock amountSol).2 = .ok ()

theorem capKeptThroughout_step {cap : ℚ} {tr : Trace World L Op Reply Env}
    {c c' : Interaction.Config World L Op Reply} {e : Label L Op Reply Env} :
    CapKeptThroughout cap (tr ++ [(c.shared, e)]) c' ↔
      CapKeptThroughout cap tr c ∧ CapKept cap (tr ++ [(c.shared, e)]) c'.shared.clock := by
  constructor
  · rintro ⟨now, before⟩
    refine ⟨⟨before tr (c.shared, e) [] rfl, ?_⟩, now⟩
    intro tr₁ x tr₂ split
    exact before tr₁ x (tr₂ ++ [(c.shared, e)]) (by rw [split, List.append_assoc, List.cons_append])
  · rintro ⟨⟨last, before⟩, now⟩
    refine ⟨now, ?_⟩
    intro tr₁ x tr₂ split
    rcases List.eq_nil_or_concat tr₂ with rfl | ⟨tr₂, y, rfl⟩
    · obtain ⟨rfl, same⟩ := List.append_inj' split rfl
      cases same
      exact last
    · rw [List.concat_eq_append, ← List.cons_append, ← List.append_assoc] at split
      exact before tr₁ x tr₂ (List.append_inj' split rfl).1

theorem recordsStillFit_step {tr : Trace World L Op Reply Env} {x : World × Label L Op Reply Env} :
    RecordsStillFit (tr ++ [x]) ↔ RecordsStillFit tr ∧
      ∀ amountSol ∈ recordAmount x.2, (x.1.tracker.check x.1.clock amountSol).2 = .ok () := by
  simp only [RecordsStillFit, List.forall_mem_append, List.forall_mem_singleton]

theorem spendLog_record {tr : Trace World L Op Reply Env} {w : World} {e : Label L Op Reply Env}
    {amountSol : ℚ} (records : recordAmount e = some amountSol) :
    spendLog (tr ++ [(w, e)]) = spendLog tr ++ [(w.clock, amountSol)] := by
  simp [spendLog, records]

theorem spendLog_other {tr : Trace World L Op Reply Env} {w : World} {e : Label L Op Reply Env}
    (other : recordAmount e = none) : spendLog (tr ++ [(w, e)]) = spendLog tr := by
  simp [spendLog, other]

end Log

section Books

variable {L : Type} {M : System World L Op Reply Env} {cap amount : ℚ}

/-- What the cap needs to know about a mode of the bot: its steps treat the tracker as they should,
and its sessions check and record one amount. -/
structure Spends (M : System World L Op Reply Env) (c₀ : Interaction.Config World L Op Reply)
    (cap amount : ℚ) : Prop where
  start : c₀.shared.tracker = .new cap
  exec : ∀ {w i l o r w'}, M.exec w i l o r = some w' → w.perform i o r = some w'
  env : ∀ {w e w' ts}, M.env w e = some (w', ts) → w.clock ≤ w'.clock ∧ w'.tracker = w.tracker
  check : ∀ {tr c} {i : Nat} {l now a resume}, Run M always c₀ tr c →
    c.tasks[i]? = some (.op l (.spendCheck now a) resume) → a = amount ∧ now ≤ c.shared.clock
  record : ∀ {tr c} {i : Nat} {l a resume}, Run M always c₀ tr c →
    c.tasks[i]? = some (.op l (.spendRecord a) resume) → a = amount

structure Books (cap amount : ℚ) (tr : Trace World L Op Reply Env) (w : World) : Prop where
  holds : w.tracker.Holds (spendLog tr) w.clock
  window : w.tracker.window = day
  capSol : w.tracker.capSol = cap
  constant : ∀ e ∈ spendLog tr, e.2 = amount

variable {c₀ c c' : Interaction.Config World L Op Reply} {tr : Trace World L Op Reply Env}
  {e : Label L Op Reply Env}

theorem Books.other {w w' : World} (h : Books cap amount tr w) (later : w.clock ≤ w'.clock)
    (tracker : w'.tracker = w.tracker) (other : recordAmount e = none) :
    Books cap amount (tr ++ [(w, e)]) w' := by
  obtain ⟨holds, window, capSol, constant⟩ := h
  refine ⟨?_, tracker ▸ window, tracker ▸ capSol, by rwa [spendLog_other other]⟩
  rw [spendLog_other other, tracker]
  exact holds.later later

theorem books_step (spends : Spends M c₀ cap amount) (before : Run M always c₀ tr c)
    (books : Books cap amount tr c.shared) (moved : Step M c e c') :
    Books cap amount (tr ++ [(c.shared, e)]) c'.shared := by
  cases moved with
  | unroll pending => exact books.other (le_refl _) rfl rfl
  | env granted => exact books.other (spends.env granted).1 (spends.env granted).2 rfl
  | @perform i l o resume r s' pending granted =>
      have granted := spends.exec granted
      have clock := (World.perform_clock granted).1
      cases own : o.shared with
      | false =>
          have none : recordAmount (.perform i l o r : Label L Op Reply Env) = none := by
            cases o with
            | spendRecord amountSol => cases own
            | _ => rfl
          exact books.other clock.ge (World.perform_sameCommon granted own).tracker none
      | true =>
          obtain ⟨holds, window, capSol, constant⟩ := books
          cases o with
          | fetchAdd =>
              obtain ⟨_, rfl⟩ := World.perform_fetchAdd.mp granted
              exact Books.other ⟨holds, window, capSol, constant⟩ (le_refl _) rfl rfl
          | fetchSub =>
              obtain ⟨_, rfl⟩ := World.perform_fetchSub.mp granted
              exact Books.other ⟨holds, window, capSol, constant⟩ (le_refl _) rfl rfl
          | spendCheck now amountSol =>
              obtain ⟨_, rfl⟩ := World.perform_spendCheck.mp granted
              have evicted : (c.shared.tracker.check now amountSol).1 =
                  c.shared.tracker.evict now := by
                simp only [DailySpendTracker.check]
                split_ifs <;> rfl
              have past := (spends.check before pending).2
              refine ⟨?_, by rw [evicted]; exact window, by rw [evicted]; exact capSol,
                by rwa [spendLog_other rfl]⟩
              rw [spendLog_other rfl, evicted]
              exact holds.evict past
          | spendRecord amountSol =>
              obtain ⟨_, rfl⟩ := World.perform_spendRecord.mp granted
              have same := spends.record before pending
              refine ⟨?_, window, capSol, ?_⟩
              · rw [spendLog_record rfl]
                exact (holds.record amountSol).evict (le_refl _)
              · rw [spendLog_record rfl]
                intro x mem
                rcases List.mem_append.mp mem with old | new
                · exact constant x old
                · rw [List.mem_singleton.mp new, same]
          | _ => cases own

theorem books_kept (spends : Spends M c₀ cap amount) (run : Run M always c₀ tr c) :
    Books cap amount tr c.shared := by
  apply run.invariant (fun tr c => Books cap amount tr c.shared)
  · refine ⟨?_, ?_, ?_, nofun⟩ <;> rw [spends.start]
    · exact DailySpendTracker.new_holds cap _
    · rfl
    · rfl
  intro tr c e c' before books _ moved
  exact books_step spends before books moved

theorem capKeptThroughout_iff (spends : Spends M c₀ cap amount) (run : Run M always c₀ tr c) :
    CapKeptThroughout cap tr c ↔ 0 ≤ cap ∧ RecordsStillFit tr := by
  induction run with
  | start =>
      simp only [CapKeptThroughout, CapKept, RecordsStillFit, spendLog, List.filterMap_nil,
        spentWithin_nil, List.nil_eq_append_iff, List.not_mem_nil]
      simp
  | @step tr c c' e before _ moved ih =>
      have books := books_kept spends before
      rw [capKeptThroughout_step, ih, recordsStillFit_step, and_assoc]
      apply and_congr_right
      intro room
      apply and_congr_right
      intro fits
      have kept : CapKept cap tr c.shared.clock := (ih.mpr ⟨room, fits⟩).1
      have later : c.shared.clock ≤ c'.shared.clock := by
        cases moved with
        | perform pending granted => exact (World.perform_clock (spends.exec granted)).1.ge
        | unroll pending => exact le_refl _
        | env granted => exact (spends.env granted).1
      cases records : recordAmount e with
      | none =>
          refine iff_of_true ?_ nofun
          rw [CapKept, spendLog_other records]
          rcases spentWithin_later books.constant later with less | ⟨_, none⟩
          · exact less.trans kept
          · exact none.trans room
      | some amountSol =>
          have clock : c'.shared.clock = c.shared.clock := by
            cases moved with
            | perform pending granted => exact (World.perform_clock (spends.exec granted)).1
            | unroll pending => rfl
            | env granted => cases records
          rw [CapKept, spendLog_record records, clock, spentWithin_record]
          have check := books.holds.check_ok amountSol
          rw [books.window, books.capSol] at check
          rw [← check]
          simp

/-- How many records there were since the last check of session `i` that passed. -/
def recordsSinceCheck (i : Nat) (tr : Trace World L Op Reply Env) : Option Nat :=
  tr.foldl (fun n x => match x.2 with
    | .perform j _ (.spendCheck _ _) (.ok ()) => if j = i then some 0 else n
    | .perform _ _ (.spendRecord _) _ => n.map (· + 1)
    | _ => n) none

/-- A session records only when none has recorded since its own check. -/
def Unraced : Trace World L Op Reply Env → Interaction.Config World L Op Reply →
    Label L Op Reply Env → Prop := fun tr _ e =>
  ∀ i l amountSol total, e = .perform i l (.spendRecord amountSol) total →
    recordsSinceCheck i tr = some 0

theorem checked_room (spends : Spends M c₀ cap amount) (room : 0 ≤ cap)
    (run : Run M always c₀ tr c) (i : Nat) :
    recordsSinceCheck i tr = some 0 →
      spentWithin day (spendLog tr) c.shared.clock + amount ≤ cap := by
  apply run.invariant (fun tr c => recordsSinceCheck i tr = some 0 →
    spentWithin day (spendLog tr) c.shared.clock + amount ≤ cap)
  · intro fresh
    cases fresh
  intro tr c e c' before ih _ moved
  have books := books_kept spends before
  -- a step that neither records nor passes the check of session `i`
  have wait (later : c.shared.clock ≤ c'.shared.clock) (other : recordAmount e = none)
      (same : recordsSinceCheck i (tr ++ [(c.shared, e)]) = recordsSinceCheck i tr) :
      recordsSinceCheck i (tr ++ [(c.shared, e)]) = some 0 →
        spentWithin day (spendLog (tr ++ [(c.shared, e)])) c'.shared.clock + amount ≤ cap := by
    intro fresh
    rw [spendLog_other other]
    rcases spentWithin_later books.constant later with less | ⟨neg, none⟩
    · exact (add_le_add_left less amount).trans (ih (same ▸ fresh))
    · exact (add_nonpos none neg).trans room
  cases moved with
  | unroll pending => exact wait (le_refl _) rfl (by simp [recordsSinceCheck])
  | env granted => exact wait (spends.env granted).1 rfl (by simp [recordsSinceCheck])
  | @perform j l o resume r s' pending granted =>
      have granted := spends.exec granted
      have clock := (World.perform_clock granted).1
      cases o with
      | spendRecord amountSol =>
          intro fresh
          simp [recordsSinceCheck] at fresh
      | spendCheck now amountSol =>
          obtain ⟨passed, _⟩ := World.perform_spendCheck.mp granted
          obtain ⟨same, past⟩ := spends.check before pending
          cases r with
          | error spent => exact wait clock.ge rfl (by simp [recordsSinceCheck])
          | ok u =>
              intro _
              have checked := books.holds.checked past (same ▸ books.constant)
                (books.capSol.symm ▸ room) passed.symm
              rw [books.window, books.capSol, same] at checked
              rwa [spendLog_other rfl, clock]
      | _ => exact wait clock.ge rfl (by simp [recordsSinceCheck])

/-- Sessions that do not race each other between check and record keep the cap. -/
theorem unraced_records_fit (spends : Spends M c₀ cap amount) (room : 0 ≤ cap)
    (run : Run M Unraced c₀ tr c) : RecordsStillFit tr := by
  apply run.invariant (fun tr _ => RecordsStillFit tr)
  · intro x mem
    cases mem
  intro tr c e c' before ih admitted moved
  have before : Run M always c₀ tr c := before.refine fun _ _ _ => trivial
  apply recordsStillFit_step.mpr
  refine ⟨ih, ?_⟩
  intro amountSol records
  cases moved with
  | unroll pending => cases records
  | env granted => cases records
  | @perform i l o resume r s' pending granted =>
      cases o with
      | spendRecord a =>
          cases records
          have books := books_kept spends before
          rw [books.holds.check_ok, books.window, books.capSol, spends.record before pending]
          exact checked_room spends room before i (admitted i l amountSol r rfl)
      | _ => cases records

theorem unraced_cap_kept (spends : Spends M c₀ cap amount) (room : 0 ≤ cap)
    (run : Run M Unraced c₀ tr c) : CapKeptThroughout cap tr c := by
  have fits := unraced_records_fit spends room run
  have run : Run M always c₀ tr c := run.refine fun _ _ _ => trivial
  exact (capKeptThroughout_iff spends run).mpr ⟨room, fits⟩

end Books

section Modes

variable (cfg : Market.Config) (dryRun : Bool) (start : Instant)

theorem graduation_spends : Spends (graduation cfg dryRun) (graduationStart cfg start)
    cfg.dipBuy.dailySpendCapSol cfg.amountSol where
  start := rfl
  exec granted := granted
  env granted := by
    rcases graduation_env_cases granted with ⟨_, _, rfl, _⟩ | ⟨moved, _⟩
    · exact ⟨le_refl _, rfl⟩
    · exact ⟨(World.background_common moved).1, (World.background_common moved).2.2⟩
  check run pending := by
    obtain ⟨same, read, _⟩ := session_permits run pending
    exact ⟨same, read.trans (diary_seen_le run _)⟩
  record run pending := (session_permits run pending).1

theorem copy_spends : Spends (copyMode cfg dryRun) (copyStart cfg start)
    cfg.copyTrade.dailySpendCapSol cfg.copyTrade.tradeAmountSol where
  start := rfl
  exec granted := copyMode_exec granted
  env granted := copyMode_env_common granted
  check run pending := by
    obtain ⟨same, read⟩ := copy_permits run pending
    exact ⟨same, read.trans (copyDiary_seen_le run _)⟩
  record run pending := copy_permits run pending

end Modes

/-- In either mode of the bot the cap is kept all along a run exactly when it is not negative and
every recorded amount still fitted at the moment it was recorded; so it is whenever no session
records between the check and the record of another. -/
theorem spend_cap_kept_iff (cfg : Market.Config) (dryRun : Bool) (start : Instant) :
    (∀ tr c, GradRun cfg dryRun start always tr c →
      (CapKeptThroughout cfg.dipBuy.dailySpendCapSol tr c ↔
        0 ≤ cfg.dipBuy.dailySpendCapSol ∧ RecordsStillFit tr)) ∧
    (∀ tr c, CopyRun cfg dryRun start always tr c →
      (CapKeptThroughout cfg.copyTrade.dailySpendCapSol tr c ↔
        0 ≤ cfg.copyTrade.dailySpendCapSol ∧ RecordsStillFit tr)) ∧
    (0 ≤ cfg.dipBuy.dailySpendCapSol → ∀ tr c, GradRun cfg dryRun start Unraced tr c →
      CapKeptThroughout cfg.dipBuy.dailySpendCapSol tr c) ∧
    (0 ≤ cfg.copyTrade.dailySpendCapSol → ∀ tr c, CopyRun cfg dryRun start Unraced tr c →
      CapKeptThroughout cfg.copyTrade.dailySpendCapSol tr c) := by
  have graduation := graduation_spends cfg dryRun start
  have copy := copy_spends cfg dryRun start
  refine ⟨?_, ?_, ?_, ?_⟩
  · intro tr c run
    exact capKeptThroughout_iff graduation run
  · intro tr c run
    exact capKeptThroughout_iff copy run
  · intro room tr c run
    exact unraced_cap_kept graduation room run
  · intro room tr c run
    exact unraced_cap_kept copy room run

theorem spend_cap_kept_one_buy : ∃ (tr : GradTrace) (c : GradConfig), spendLog tr = [(0, 1)] ∧
    CapKeptThroughout eager.dipBuy.dailySpendCapSol tr c := by
  obtain ⟨tr, c, run, fits⟩ := System.script_reaches (graduation eager false)
    (graduationStart eager 0) (warmUp 0 ++ buyTick readyNet 0 9)
    (fun tr _ => spendLog tr = [(0, 1)] ∧ ∀ x ∈ tr, ∀ amountSol ∈ recordAmount x.2,
      (x.1.tracker.check x.1.clock amountSol).2.isOk = true) (by decide +kernel)
  obtain ⟨log, fits⟩ := of_decide_eq_true fits
  refine ⟨tr, c, log, ((spend_cap_kept_iff eager false 0).1 tr c run).mpr
    ⟨by decide +kernel, fun x mem amountSol records => ?_⟩⟩
  have fit := fits x mem amountSol records
  revert fit
  cases (x.1.tracker.check x.1.clock amountSol).2 with
  | ok u => exact fun _ => rfl
  | error spent => exact nofun

/-- The cap of one trade, in both modes. -/
def tight : Market.Config :=
  { eager with
    dipBuy := { eager.dipBuy with dailySpendCapSol := 1 }
    copyTrade := { dailySpendCapSol := 1 / 10 } }

/-- Two sessions check before either records, in both modes: the records sum to twice the cap. -/
theorem raced_checks_breach_cap :
    (∃ tr c, GradRun tight false 0 always tr c ∧
      ¬ CapKeptThroughout tight.dipBuy.dailySpendCapSol tr c) ∧
    (∃ tr c, CopyRun tight false 0 always tr c ∧
      ¬ CapKeptThroughout tight.copyTrade.dailySpendCapSol tr c) := by
  obtain ⟨tr, c, run, beyond⟩ := System.script_reaches (graduation tight false)
    (graduationStart tight 0)
    (warmUp 0 ++ warmUp 1 ++ buyTick readyNet 0 5 ++ buyTick readyNet 1 6 ++ go readyNet 0 1)
    (fun tr c => tight.dipBuy.dailySpendCapSol < spentWithin day (spendLog tr) c.shared.clock)
    (by decide +kernel)
  obtain ⟨tr', c', run', beyond'⟩ := System.script_reaches (copyMode tight false)
    (copyStart tight 0)
    ([.env (.frame (alphaTrade someMint "A" "buy") 0),
        .env (.frame (alphaTrade splTokenId "B" "buy") 0)] ++
      go readyNet 0 4 ++ go readyNet 1 5 ++ go readyNet 0 1)
    (fun tr c => tight.copyTrade.dailySpendCapSol < spentWithin day (spendLog tr) c.shared.clock)
    (by decide +kernel)
  exact ⟨⟨tr, c, run, fun kept => absurd kept.1 (not_le.mpr (of_decide_eq_true beyond))⟩,
    tr', c', run', fun kept => absurd kept.1 (not_le.mpr (of_decide_eq_true beyond'))⟩

end HadesPsTrader.Tasks
