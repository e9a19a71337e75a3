/- Module: HadesPsTrader/Runs/EntryNotes
   source: src/session.rs, src/copy_session.rs, src/position.rs
   digest: What is noted down of an entry, and when the entry price is the price of its fill. -/

import Mathlib.Tactic.Linarith
import Mathlib.Tactic.Positivity
import HadesPsTrader.Chain.BuyLandings
import HadesPsTrader.Runs.CopyPieces

set_option autoImplicit false
set_option relaxedAutoImplicit false

namespace HadesPsTrader.Tasks

open HadesPsTrader.Market HadesPsTrader.Chain HadesPsTrader.Interaction

structure EntryNotes where
  /-- How many buys the session has made. -/
  buys : Nat := 0
  /-- The last buy, with everything that the network replied to it. -/
  last : Option (BuyParams × (Nat → SubmitAnswers)) := none
  /-- The tokens in the wallet, as read after that buy. -/
  read : ℚ := 0
  /-- The price poll was spawned. -/
  polled : Bool := false

/-- The tokens that a transaction of the `n`-th buy of session `i` brings if it lands. -/
abbrev Fills := Nat → Nat → Signature → ℚ

namespace EntryNotes

variable (cfg : Market.Config) (dryRun : Bool) (g : EntryNotes)

def next (attempts : Nat) : (o : Op) → Reply o → EntryNotes
  | .buy p, answers => { g with buys := g.buys + 1, last := some (p, answers), read := 0 }
  | .fetchTokenBalance _, answers => match fetchTokenBalance attempts answers with
    | .ok b => { g with read := b.uiAmount }
    | .error _ => g
  | .spawnPricePoll _, _ => { g with polled := true }
  | _, _ => g

/-- The amount that each transaction of the last buy swaps for tokens. -/
def amountSol : ℚ := (g.last.map fun x => x.1.amountSol).getD 0

def landings : List Signature :=
  match g.last with
  | some (p, answers) => landed (Chain.buy (jitoSettings cfg) p dryRun answers).wire
  | none => []

def spent : ℚ := g.amountSol * (g.landings cfg dryRun).length

def acquired (filled : Nat → Signature → ℚ) : ℚ := ((g.landings cfg dryRun).map (filled g.buys)).sum

def fillPrice (filled : Nat → Signature → ℚ) : ℚ :=
  g.spent cfg dryRun / g.acquired cfg dryRun filled

/-- Some transaction of the buy lands, and the balance read is what each of them brought on
average: with a single one, exactly the tokens of this entry. Nothing else counts where the amount
is zero. -/
def FillRead (filled : Nat → Signature → ℚ) : Prop :=
  g.amountSol = 0 ∨ (g.landings cfg dryRun ≠ [] ∧
    g.read * (g.landings cfg dryRun).length = g.acquired cfg dryRun filled)

instance (filled : Nat → Signature → ℚ) : Decidable (g.FillRead cfg dryRun filled) :=
  inferInstanceAs (Decidable (_ ∨ _))

/-- When an entry price is `right`. -/
structure FillLaw (filled : Nat → Signature → ℚ) (right : Prop) : Prop where
  /-- Whatever the node answered. -/
  read : right ↔ g.FillRead cfg dryRun filled
  /-- Where it answered with all the tokens in the wallet, those `held` before the entry and those
  that the entry acquired: nothing was held, and a single transaction lands. -/
  whole : ∀ held, 0 ≤ held → (∀ n sig, 0 < filled n sig) →
    g.read = held + g.acquired cfg dryRun filled →
    (right ↔ g.amountSol = 0 ∨ held = 0 ∧ (g.landings cfg dryRun).length = 1)

/-- The entry price that the code computes from the notes. -/
structure Prices (price : ℚ) : Prop where
  positive : 0 < g.read
  quotient : price = g.amountSol / g.read

variable {cfg dryRun g}

theorem Prices.eq_fillPrice_iff {price : ℚ} (prices : g.Prices price)
    {filled : Nat → Signature → ℚ} :
    price = g.fillPrice cfg dryRun filled ↔ g.FillRead cfg dryRun filled := by
  rw [prices.quotient]
  unfold fillPrice spent FillRead
  have nonzero : g.read ≠ 0 := prices.positive.ne'
  by_cases free : g.amountSol = 0
  · simp [free]
  by_cases none_landed : g.landings cfg dryRun = []
  · simp [free, none_landed, nonzero]
  have some_landed : ((g.landings cfg dryRun).length : ℚ) ≠ 0 :=
    Nat.cast_ne_zero.mpr (List.length_pos_iff.mpr none_landed).ne'
  by_cases empty : g.acquired cfg dryRun filled = 0
  · simp [free, none_landed, nonzero, empty]
  rw [div_eq_div_iff nonzero empty, mul_assoc, mul_right_inj' free, mul_comm _ g.read]
  simp only [free, none_landed, false_or, ne_eq, not_false_eq_true, true_and, eq_comm]

private theorem share_eq_iff {held brought more : ℚ} (held_nonneg : 0 ≤ held)
    (positive : 0 < brought) (more_nonneg : 0 ≤ more) :
    (held + brought) * (more + 1) = brought ↔ held = 0 ∧ more = 0 := by
  constructor
  · intro share
    -- what was held and what the other landings are counted for both add to the share
    have left : 0 ≤ held * (more + 1) := by positivity
    have right : 0 ≤ brought * more := by positivity
    have surplus : held * (more + 1) + brought * more = 0 := by linarith
    have none_held : held * (more + 1) = 0 := by linarith
    have none_more : brought * more = 0 := by linarith
    constructor
    · exact (mul_eq_zero.mp none_held).resolve_right (by positivity)
    · exact (mul_eq_zero.mp none_more).resolve_left positive.ne'
  · rintro ⟨rfl, rfl⟩
    linarith

/-- Where the node reads the whole balance of the wallet, and every landed transaction brings
tokens, the fill is read exactly when the wallet was empty before and one transaction lands. -/
theorem fillRead_iff_of_whole {filled : Nat → Signature → ℚ} {held : ℚ} (held_nonneg : 0 ≤ held)
    (brings : ∀ n sig, 0 < filled n sig)
    (whole : g.read = held + g.acquired cfg dryRun filled) :
    g.FillRead cfg dryRun filled ↔
      g.amountSol = 0 ∨ held = 0 ∧ (g.landings cfg dryRun).length = 1 := by
  unfold FillRead
  refine or_congr_right ?_
  rw [whole]
  unfold acquired
  rcases landings : g.landings cfg dryRun with _ | ⟨sig, rest⟩
  · simp
  have others : 0 ≤ (rest.map (filled g.buys)).sum := by
    apply List.sum_nonneg
    intro x mem
    obtain ⟨sig, _, rfl⟩ := List.mem_map.mp mem
    exact (brings g.buys sig).le
  have positive : 0 < filled g.buys sig + (rest.map (filled g.buys)).sum :=
    add_pos_of_pos_of_nonneg (brings g.buys sig) others
  have share := share_eq_iff held_nonneg positive (Nat.cast_nonneg rest.length)
  simp only [ne_eq, reduceCtorEq, not_false_eq_true, true_and, List.map_cons,
    List.sum_cons, List.length_cons, Nat.cast_add, Nat.cast_one, share, Nat.cast_eq_zero,
    Nat.add_eq_right]

theorem Prices.fillLaw {price : ℚ} (prices : g.Prices price) {filled : Nat → Signature → ℚ} :
    g.FillLaw cfg dryRun filled (price = g.fillPrice cfg dryRun filled) where
  read := prices.eq_fillPrice_iff
  whole _ held_nonneg brings whole :=
    prices.eq_fillPrice_iff.trans (fillRead_iff_of_whole held_nonneg brings whole)

theorem FillLaw.congr {filled : Nat → Signature → ℚ} {right right' : Prop}
    (law : g.FillLaw cfg dryRun filled right) (same : right' ↔ right) :
    g.FillLaw cfg dryRun filled right' where
  read := same.trans law.read
  whole held held_nonneg brings whole := same.trans (law.whole held held_nonneg brings whole)

end EntryNotes

def Op.isNoted : Op → Bool
  | .buy _ => true
  | .fetchTokenBalance _ => true
  | .spawnPricePoll _ => true
  | _ => false

theorem EntryNotes.next_idle {g : EntryNotes} {attempts : Nat} {o : Op} {r : Reply o}
    (idle : o.isNoted = false) : g.next attempts o r = g := by
  cases o with
  | buy p => cases idle
  | fetchTokenBalance mint => cases idle
  | spawnPricePoll mint => cases idle
  | _ => rfl

theorem EntryNotes.next_fetch_ok {g : EntryNotes} {attempts : Nat} {mint : Pubkey}
    {answers : BalanceAnswers} {b : TokenBalance}
    (balance : fetchTokenBalance attempts answers = .ok b) :
    g.next attempts (.fetchTokenBalance mint) answers = { g with read := b.uiAmount } := by
  simp only [next, balance]

theorem EntryNotes.next_fetch_error {g : EntryNotes} {attempts : Nat} {mint : Pubkey}
    {answers : BalanceAnswers} {e : BalanceError}
    (balance : fetchTokenBalance attempts answers = .error e) :
    g.next attempts (.fetchTokenBalance mint) answers = g := by
  simp only [next, balance]

theorem unnoted_of_isExit (o : Op) (exit : o.isExit = true) : o.isNoted = false := by
  cases o with
  | buy p => cases exit
  | fetchTokenBalance mint => cases exit
  | spawnPricePoll mint => cases exit
  | _ => rfl

end HadesPsTrader.Tasks
