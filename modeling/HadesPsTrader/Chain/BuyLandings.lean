/- Module: HadesPsTrader/Chain/BuyLandings
   source: src/trader.rs
   digest: How many transactions of one buy call land, and when the call returns a signature. -/

import Mathlib.Algebra.BigOperators.Intervals
import HadesPsTrader.Chain.BuyRetries

set_option autoImplicit false
set_option relaxedAutoImplicit false

namespace HadesPsTrader.Chain

open HadesPsTrader.Market

/-! ### Decidable outcomes -/

theorem Polling.ends_iff (p : Polling) (v : Verdict) : p.Ends v ↔ ∃ n < confirmRounds,
    (∀ m < n, (p.poll m).verdict = none) ∧ (p.poll n).verdict = some v := by
  constructor
  · rintro ⟨n, before, at_n⟩
    obtain ⟨m, small, conclusive⟩ := p.conclusive
    have le : n ≤ m := by
      by_contra gt
      exact conclusive (before m (by omega))
    exact ⟨n, by omega, before, at_n⟩
  · rintro ⟨n, -, ends⟩
    exact ⟨n, ends⟩

instance (p : Polling) (v : Verdict) : Decidable (p.Ends v) :=
  decidable_of_iff _ (p.ends_iff v).symm

instance (jito : Option JitoConfig) (a : SubmitAnswers) : Decidable (a.confirms jito) :=
  inferInstanceAs (Decidable ((_ ∨ _) ∧ _))

instance (jito : Option JitoConfig) (answers : Nat → SubmitAnswers) (n : Nat) :
    Decidable (Reached jito answers n) :=
  inferInstanceAs (Decidable (_ ∧ _))

/-! ### Landed transactions -/

/-- The transaction of an entry, if it was sent and lands. -/
def Wire.landing : Wire → Option Signature
  | .sent sig .lands => some sig
  | .sent _ .neverLands => none
  | .tradeLocal _ _ => none
  | .failed _ => none
  | .confirmed _ => none

def landed (w : List Wire) : List Signature := w.filterMap Wire.landing

/-- The number of transactions of one attempt that land. -/
def SubmitAnswers.landings (jito : Option JitoConfig) (a : SubmitAnswers) : Nat :=
  (if jito.isSome ∧ a.bundleReady ∧ a.sendBundle.taken = some .lands then a.bundleTxs.length
    else 0) +
  (if ¬ a.usesBundle jito ∧ a.rpcReady ∧ a.send.taken = some .lands then 1 else 0)

/-- The number of transactions of the attempts a buy call makes that land. -/
def buyLandings (jito : Option JitoConfig) (answers : Nat → SubmitAnswers) : Nat :=
  ∑ n ∈ Finset.range buyMaxAttempts with Reached jito answers n, (answers n).landings jito

@[simp] theorem landed_nil : landed [] = [] := rfl

@[simp] theorem landed_append (w₁ w₂ : List Wire) :
    landed (w₁ ++ w₂) = landed w₁ ++ landed w₂ := List.filterMap_append

@[simp] theorem landed_tradeLocal (body : TradeBody) (array : Bool) (w : List Wire) :
    landed (.tradeLocal body array :: w) = landed w := rfl

theorem landed_sentIf (taken : Option Fate) (sigs : List Signature) :
    landed (sentIf taken sigs) = if taken = some .lands then sigs else [] := by
  cases taken with
  | none => rfl
  | some fate => cases fate <;> simp [landed, sentIf, Wire.landing, Function.comp_def]

theorem landed_quiet {w : List Wire} (quiet : ¬ Sends w) : landed w = [] := by
  refine List.filterMap_eq_nil_iff.mpr ?_
  intro e he
  cases e with
  | sent sig fate => exact absurd ⟨sig, fate, he⟩ quiet
  | tradeLocal body array => rfl
  | failed sig => rfl
  | confirmed sig => rfl

section Attempt

variable {jito : Option JitoConfig} {attempt : Nat} {action : Action} {body : TradeBody}
  {a : SubmitAnswers}

private theorem landed_sendBundle (j : JitoConfig) :
    (landed (sendBundle j attempt body a).wire).length =
      if a.bundleReady ∧ a.sendBundle.taken = some .lands then a.bundleTxs.length else 0 := by
  by_cases ready : a.bundleReady
  · rw [sendBundle_ready j attempt body ready]
    simp only [landed_tradeLocal, landed_sentIf, ready, true_and]
    split_ifs
    · simp [bundleSignatures]
    · rfl
  · obtain ⟨e, h⟩ := sendBundle_unready j attempt body ready
    simp [h, ready]

private theorem landed_sendRpc :
    (landed (sendRpc attempt action body a).wire).length =
      if a.rpcReady ∧ a.send.taken = some .lands then 1 else 0 := by
  by_cases ready : a.rpcReady
  · rw [sendRpc_ready attempt action body ready]
    simp only [landed_tradeLocal, landed_append, landed_sentIf, ready, true_and,
      landed_quiet rpcOutcome_quiet, List.append_nil]
    split_ifs <;> rfl
  · obtain ⟨e, h⟩ := sendRpc_unready attempt action body ready
    simp [h, ready]

theorem landed_submit (jito : Option JitoConfig) (attempt : Nat) (action : Action)
    (body : TradeBody) (a : SubmitAnswers) :
    (landed (submit jito attempt action body false a).wire).length = a.landings jito := by
  cases jito with
  | none =>
      refine landed_sendRpc.trans ?_
      simp [SubmitAnswers.landings, SubmitAnswers.usesBundle]
  | some j =>
      by_cases accepted : a.usesBundle (some j)
      · rw [submit_bundle j attempt action body accepted]
        simp [landed_sendBundle, landed_quiet confirm_quiet, SubmitAnswers.landings, accepted]
      · rw [submit_fallback j attempt action body accepted]
        simp [landed_sendBundle, landed_sendRpc, SubmitAnswers.landings, accepted]

end Attempt

section Escalate

variable {jito : Option JitoConfig} {action : Action} {body : ℚ → TradeBody}
  {answers : Nat → SubmitAnswers}

theorem landed_escalate (left n : Nat) (slippage : ℚ) (lastErr : Option BoxError)
    [DecidablePred (ReachedFrom jito answers n left)] :
    (landed (escalate jito action body false answers left n slippage lastErr).wire).length =
      ∑ m ∈ Finset.Ico n (n + left) with ReachedFrom jito answers n left m,
        (answers m).landings jito := by
  classical
  induction left generalizing n slippage lastErr with
  | zero => simp [escalate, landed]
  | succ left ih =>
      have here := landed_submit jito n action (body slippage) (answers n)
      have ended := submit_isOk jito n action (body slippage) (answers n)
      rw [escalate, Finset.sum_filter, Finset.sum_eq_sum_Ico_succ_bot (by omega)]
      cases result : (submit jito n action (body slippage) false (answers n)).result with
      | ok opt =>
          have done := ended.mp (by rw [result]; rfl)
          simp only [reachedFrom_confirmed done, if_true, here]
          rw [Finset.sum_eq_zero fun m hm => if_neg (by simp at hm; omega), Nat.add_zero]
      | error e =>
          have failed : ¬ (answers n).confirms jito := fun done => by
            have := ended.mpr done
            rw [result] at this
            cases this
          have later : (∑ m ∈ Finset.Ico (n + 1) (n + (left + 1)),
              if ReachedFrom jito answers n (left + 1) m then (answers m).landings jito else 0) =
              ∑ m ∈ Finset.Ico (n + 1) (n + 1 + left) with ReachedFrom jito answers (n + 1) left m,
                (answers m).landings jito := by
            rw [Finset.sum_filter, Nat.add_right_comm, ← Nat.add_assoc]
            refine Finset.sum_congr rfl ?_
            intro m hm
            have ne : m ≠ n := by simp at hm; omega
            simp only [reachedFrom_failed failed, ne, false_or]
          rw [later, if_pos ((reachedFrom_failed failed).mpr (.inl rfl))]
          simp only [Net.tell_bind, landed_append, List.length_append, here, ih (n + 1) _ _]

end Escalate

section Buy

variable (jito : Option JitoConfig) (p : BuyParams) (answers : Nat → SubmitAnswers)

theorem landed_buy :
    (landed (buy jito p false answers).wire).length = buyLandings jito answers := by
  classical
  rw [buy, landed_escalate, buyLandings, Nat.zero_add, Finset.range_eq_Ico]
  simp only [reached_iff]

theorem buy_isOk : (buy jito p false answers).result.isOk ↔
    ∃ n, Reached jito answers n ∧ (answers n).confirms jito := by
  rw [buy, escalate_isOk]
  simp only [reached_iff]

private theorem sendRpc_signed (attempt : Nat) (action : Action) (body : TradeBody)
    (a : SubmitAnswers) : (sendRpc attempt action body a).result ≠ .ok none := by
  by_cases ready : a.rpcReady
  · rw [sendRpc_ready attempt action body ready]
    cases (rpcOutcome attempt action a).result <;> simp [Except.map]
  · obtain ⟨e, h⟩ := sendRpc_unready attempt action body ready
    simp [h]

private theorem submit_signed (attempt : Nat) (action : Action) (body : TradeBody)
    (a : SubmitAnswers) : (submit jito attempt action body false a).result ≠ .ok none := by
  cases jito with
  | none => exact sendRpc_signed attempt action body a
  | some j =>
      by_cases accepted : a.usesBundle (some j)
      · rw [submit_bundle j attempt action body accepted]
        cases (confirm a.polling ⟨attempt, .bundle, 0⟩ action).result <;> simp [Except.map]
      · rw [submit_fallback j attempt action body accepted]
        exact sendRpc_signed attempt action body a

theorem escalate_signed (action : Action) (body : ℚ → TradeBody) (left n : Nat)
    (slippage : ℚ) (lastErr : Option BoxError) :
    (escalate jito action body false answers left n slippage lastErr).result ≠ .ok none := by
  induction left generalizing n slippage lastErr with
  | zero => simp [escalate]
  | succ left ih =>
      have signed := submit_signed jito n action (body slippage) (answers n)
      rw [escalate]
      cases result : (submit jito n action (body slippage) false (answers n)).result with
      | ok opt => rwa [result] at signed
      | error e => simpa using ih (n + 1) _ _

theorem buy_signed : (buy jito p false answers).result ≠ .ok none :=
  escalate_signed jito answers .buy _ buyMaxAttempts 0 p.slippagePct none

theorem buy_dry : buy jito p true answers = ⟨[], .ok none⟩ := rfl

end Buy

end HadesPsTrader.Chain
