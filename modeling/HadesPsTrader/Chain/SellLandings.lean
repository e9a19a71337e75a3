/- Module: HadesPsTrader/Chain/SellLandings
   source: src/trader.rs
   digest: When a sell call that fails has sold nothing. -/

import HadesPsTrader.Chain.BuyLandings

set_option autoImplicit false
set_option relaxedAutoImplicit false

namespace HadesPsTrader.Chain

open HadesPsTrader.Market

/-- A live call that returns an error has sold nothing: no transaction that it sent lands. -/
def FailsUnsold (jito : Option JitoConfig) (p : SellAllParams) (answers : Nat → SubmitAnswers) :
    Prop :=
  (sellAll jito p false answers).result.isOk = false →
    landed (sellAll jito p false answers).wire = []

/-- One of the attempts sees its transaction confirmed, or no transaction of any of them lands. -/
def SellSettles (jito : Option JitoConfig) (answers : Nat → SubmitAnswers) : Prop :=
  (∃ n < sellMaxAttempts, (answers n).confirms jito) ∨
    ∀ n < sellMaxAttempts, (answers n).landings jito = 0

instance (jito : Option JitoConfig) (answers : Nat → SubmitAnswers) :
    Decidable (SellSettles jito answers) :=
  inferInstanceAs (Decidable (_ ∨ _))

section Sell

variable (jito : Option JitoConfig) (p : SellAllParams) (answers : Nat → SubmitAnswers)

theorem sellAll_isOk : (sellAll jito p false answers).result.isOk ↔
    ∃ n < sellMaxAttempts, (answers n).confirms jito := by
  rw [sellAll, escalate_isOk]
  constructor
  · rintro ⟨n, ⟨_, small, _⟩, confirms⟩
    exact ⟨n, by simpa using small, confirms⟩
  · intro some_confirms
    -- the first attempt that confirms is the one that is made last
    obtain ⟨small, confirms⟩ := Nat.find_spec some_confirms
    refine ⟨Nat.find some_confirms, ⟨Nat.zero_le _, by simpa using small, ?_⟩, confirms⟩
    intro m _ earlier confirmed
    exact Nat.find_min some_confirms earlier ⟨earlier.trans small, confirmed⟩

theorem landed_sellAll_failed (failed : ∀ n < sellMaxAttempts, ¬ (answers n).confirms jito) :
    (landed (sellAll jito p false answers).wire).length =
      ∑ n ∈ Finset.range sellMaxAttempts, (answers n).landings jito := by
  classical
  have made : ∀ n ∈ Finset.Ico 0 (0 + sellMaxAttempts),
      ReachedFrom jito answers 0 sellMaxAttempts n := by
    intro n mem
    obtain ⟨_, small⟩ := Finset.mem_Ico.mp mem
    refine ⟨Nat.zero_le n, small, ?_⟩
    intro m _ earlier
    exact failed m (by omega)
  rw [sellAll, landed_escalate, Finset.filter_true_of_mem made, Nat.zero_add,
    Finset.range_eq_Ico]

/-- A sell call that fails has sold nothing exactly when it settles. -/
theorem failsUnsold_iff : FailsUnsold jito p answers ↔ SellSettles jito answers := by
  unfold FailsUnsold SellSettles
  by_cases confirmed : ∃ n < sellMaxAttempts, (answers n).confirms jito
  · have succeeded := (sellAll_isOk jito p answers).mpr confirmed
    refine iff_of_true ?_ (.inl confirmed)
    intro failed
    rw [succeeded] at failed
    cases failed
  · have failed : (sellAll jito p false answers).result.isOk = false :=
      Bool.eq_false_iff.mpr fun ok => confirmed ((sellAll_isOk jito p answers).mp ok)
    have none_confirms : ∀ n < sellMaxAttempts, ¬ (answers n).confirms jito :=
      fun n small confirms => confirmed ⟨n, small, confirms⟩
    have count := landed_sellAll_failed jito p answers none_confirms
    rw [forall_prop_of_true failed, ← List.length_eq_zero_iff, count, Finset.sum_eq_zero_iff]
    simp only [Finset.mem_range, confirmed, false_or]

theorem sellAll_signed : (sellAll jito p false answers).result ≠ .ok none :=
  escalate_signed jito answers .sell _ sellMaxAttempts 0 p.slippagePct none

theorem sellAll_dry : sellAll jito p true answers = ⟨[], .ok none⟩ := rfl

end Sell

/-- The first transaction of a sell lands without a status of it ever being seen, and after it there
is nothing left to sell. -/
def lateSale (n : Nat) : SubmitAnswers :=
  if n = 0 then lateLanding else { lateLanding with tradeLocal := .response 400 false }

/-- The call fails, although it has sold. -/
example : ¬ SellSettles none lateSale := by decide +kernel

end HadesPsTrader.Chain
