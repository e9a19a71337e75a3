/- Module: HadesPsTrader/Runs/EntryPrice
   source: src/session.rs, src/copy_session.rs, src/position.rs
   digest: When the entry price of a position is what its entry spent, over what it acquired. -/

import HadesPsTrader.Runs.CopyMode
import HadesPsTrader.Runs.EntryPieces
import HadesPsTrader.Runs.Graduation

set_option autoImplicit false
set_option relaxedAutoImplicit false

namespace HadesPsTrader.Tasks

open HadesPsTrader.Market HadesPsTrader.Chain HadesPsTrader.Interaction

theorem pnlPct_entry (pos : Position) : pos.pnlPct pos.entryPriceSol = 0 := by
  simp [Position.pnlPct]

theorem copyPnlPct_entry (entry : ℚ) : Copy.pnlPct entry entry = 0 := by
  simp [Copy.pnlPct]

section Runs

variable {cfg : Market.Config} {dryRun : Bool} {start : Instant}

def entryNotes (i : Nat) (tr : GradTrace) : EntryNotes := ghost entryProtocol {} i tr

def copyEntryNotes (i : Nat) (tr : CopyTrace) : EntryNotes := ghost copyEntryProtocol {} i tr

theorem session_priced {admits : GradAdmit} {tr : GradTrace} {c : GradConfig}
    (run : GradRun cfg dryRun start admits tr c) {i : Nat} {t : TaskProc SessionLocals}
    (here : c.tasks[i]? = some t) : (entryNotes i tr).Covers t.locals := by
  have keeps := graduation_protocol entryProtocol (fun g l _ => g.Covers l) {} ?_ ?_ run i t here
  · exact Proc.coherent_of_wp keeps fun _ _ _ covered => covered
  · exact fun ev now => coheres_sessionTask _ _ (EntryNotes.covers_none rfl)
  · intros
    trivial

theorem copy_priced {admits : CopyAdmit} {tr : CopyTrace} {c : CopyConfig}
    (run : CopyRun cfg false start admits tr c) {i : Nat} {t : TaskProc CopyLocals}
    (here : c.tasks[i]? = some t) : (copyEntryNotes i tr).CoversCopy t.locals := by
  have keeps :=
    copy_protocol copyEntryProtocol (fun g l _ => g.CoversCopy l) {} ?_ ?_ run i t here
  · exact Proc.coherent_of_wp keeps fun _ _ _ covered => covered
  · exact fun alpha => unpolled_copyHandle rfl
  · intros
    trivial

/-- The open position of session `i` is priced at its fill, where the PnL is zero. -/
def PricedAtFill (cfg : Market.Config) (dryRun : Bool) (fills : Fills) (tr : GradTrace) (i : Nat)
    (pos : Position) : Prop :=
  pos.entryPriceSol = (entryNotes i tr).fillPrice cfg dryRun (fills i) ∧
    pos.pnlPct ((entryNotes i tr).fillPrice cfg dryRun (fills i)) = 0

/-- The position of live copy session `i` is priced at its fill, where the PnL is zero. -/
def CopyPricedAtFill (cfg : Market.Config) (fills : Fills) (tr : CopyTrace) (i : Nat)
    (l : CopyLocals) : Prop :=
  l.entryPriceSol = (copyEntryNotes i tr).fillPrice cfg false (fills i) ∧
    Copy.pnlPct l.entryPriceSol ((copyEntryNotes i tr).fillPrice cfg false (fills i)) = 0

theorem priced_law {admits : GradAdmit} {tr : GradTrace} {c : GradConfig}
    (run : GradRun cfg dryRun start admits tr c) (fills : Fills) {i : Nat}
    {t : TaskProc SessionLocals} (here : c.tasks[i]? = some t) {pos : Position}
    (position : t.locals.position = some pos) :
    (entryNotes i tr).FillLaw cfg dryRun (fills i) (PricedAtFill cfg dryRun fills tr i pos) := by
  refine (session_priced run here pos position).fillLaw.congr ⟨And.left, ?_⟩
  intro price
  refine ⟨price, ?_⟩
  rw [← price]
  exact pnlPct_entry pos

theorem copy_priced_law {admits : CopyAdmit} {tr : CopyTrace} {c : CopyConfig}
    (run : CopyRun cfg false start admits tr c) (fills : Fills) {i : Nat}
    {t : TaskProc CopyLocals} (here : c.tasks[i]? = some t)
    (polled : (copyEntryNotes i tr).polled = true) :
    (copyEntryNotes i tr).FillLaw cfg false (fills i)
      (CopyPricedAtFill cfg fills tr i t.locals) := by
  refine (copy_priced run here polled).fillLaw.congr ⟨And.left, ?_⟩
  intro price
  refine ⟨price, ?_⟩
  rw [← price]
  exact copyPnlPct_entry t.locals.entryPriceSol

end Runs

/-- In every reachable state the entry price of an open position, and that of a live copy position
from the moment its price is polled, is what the entry spent over the tokens that it acquired,
exactly when the balance that was read after the buy shows the fill. -/
theorem entry_price_iff (cfg : Market.Config) (start : Instant) (fills : Fills) :
    (∀ (dryRun : Bool) (tr : GradTrace) (c : GradConfig), GradRun cfg dryRun start always tr c →
      ∀ i t pos, c.tasks[i]? = some t → t.locals.position = some pos →
        (entryNotes i tr).FillLaw cfg dryRun (fills i)
          (PricedAtFill cfg dryRun fills tr i pos)) ∧
    ∀ (tr : CopyTrace) (c : CopyConfig), CopyRun cfg false start always tr c →
      ∀ i t, c.tasks[i]? = some t → (copyEntryNotes i tr).polled = true →
        (copyEntryNotes i tr).FillLaw cfg false (fills i)
          (CopyPricedAtFill cfg fills tr i t.locals) := by
  constructor
  · intro dryRun tr c run i t pos here position
    exact priced_law run fills here position
  · intro tr c run i t here polled
    exact copy_priced_law run fills here polled

theorem entry_price_first_buy : ∃ tr c t pos, GradRun eager false 0 always tr c ∧
    c.tasks[0]? = some t ∧ t.locals.position = some pos ∧
    PricedAtFill eager false (fun _ _ _ => 1) tr 0 pos := by
  obtain ⟨tr, c, run, bought⟩ := System.script_reaches (graduation eager false)
    (graduationStart eager 0) (warmUp 0 ++ buyTick readyNet 0 9)
    (fun tr c => c.tasks.map (fun t => t.locals.position.isSome) = [true] ∧
      (entryNotes 0 tr).FillRead eager false (fun _ _ => 1)) (by decide +kernel)
  obtain ⟨held, read⟩ := of_decide_eq_true bought
  obtain ⟨t, tasks, held⟩ := List.map_eq_singleton_iff.mp held
  obtain ⟨pos, position⟩ := Option.isSome_iff_exists.mp held
  have here : c.tasks[0]? = some t := by rw [tasks]; rfl
  have law := (entry_price_iff eager 0 fun _ _ _ => 1).1 false tr c run 0 t pos here position
  exact ⟨tr, c, t, pos, run, here, position, law.read.mpr read⟩

/-- A first buy is orphaned, since its balance read fails, and its half token stays in the wallet.
The second buy brings another half, and the read shows both: the entry price is half the price of
the fill. -/
theorem orphaned_tokens_halve_entry_price : ∃ tr c t pos, GradRun eager false 0 always tr c ∧
    c.tasks[0]? = some t ∧ t.locals.position = some pos ∧
    pos.entryPriceSol = 1 ∧ (entryNotes 0 tr).fillPrice eager false (fun _ _ => 1 / 2) = 2 ∧
    ¬ PricedAtFill eager false (fun _ _ _ => 1 / 2) tr 0 pos := by
  obtain ⟨tr, c, run, bought⟩ := System.script_reaches (graduation eager false)
    (graduationStart eager 0) (warmUp 0 ++ buyTick blindNet 0 10 ++ buyTick readyNet 0 9)
    (fun tr c => c.tasks.map (fun t => t.locals.position.map Position.entryPriceSol) = [some 1] ∧
      (entryNotes 0 tr).fillPrice eager false (fun _ _ => 1 / 2) = 2) (by decide +kernel)
  obtain ⟨held, fill⟩ := of_decide_eq_true bought
  obtain ⟨t, tasks, held⟩ := List.map_eq_singleton_iff.mp held
  obtain ⟨pos, position, price⟩ := Option.map_eq_some_iff.mp held
  refine ⟨tr, c, t, pos, run, by rw [tasks]; rfl, position, price, fill, ?_⟩
  rintro ⟨same, _⟩
  rw [price, fill] at same
  exact absurd same (by norm_num)

end HadesPsTrader.Tasks
