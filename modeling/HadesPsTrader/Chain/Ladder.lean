/- Module: HadesPsTrader/Chain/Ladder
   source: src/trader.rs
   digest: The requests of a trade call: one body, with the slippage of each attempt in turn. -/

import HadesPsTrader.Chain.BuyRetries

set_option autoImplicit false
set_option relaxedAutoImplicit false

namespace HadesPsTrader.Chain

open HadesPsTrader.Market

/-- The body of a trade-local request and whether it is posted as an array. -/
def Wire.request : Wire → Option (TradeBody × Bool)
  | .tradeLocal body array => some (body, array)
  | .sent _ _ => none
  | .failed _ => none
  | .confirmed _ => none

def requests (w : List Wire) : List (TradeBody × Bool) := w.filterMap Wire.request

/-- The requests of one attempt: with Jito an array whose priority fee is the tip, and the plain body
where there is no Jito or no bundle was accepted. -/
def attemptRequests (jito : Option JitoConfig) (body : TradeBody) (a : SubmitAnswers) :
    List (TradeBody × Bool) :=
  match jito with
  | none => [(body, false)]
  | some j => ({ body with priorityFee := j.tipSol }, true) ::
      if a.usesBundle (some j) then [] else [(body, false)]

/-- A call that puts one body on the wire, at most `most` times. Each further attempt follows a
failed one and raises the slippage by a step; the last attempt is the one that sees its transaction
confirmed, or the last there is. -/
def Climbs (jito : Option JitoConfig) (answers : Nat → SubmitAnswers) (body : ℚ → TradeBody)
    (slippage : ℚ) (first most : Nat) (w : List Wire) : Prop :=
  ∃ made ≤ most,
    (∀ i, i + 1 < made → ¬ (answers (first + i)).confirms jito) ∧
    (made < most → ∃ last, made = last + 1 ∧ (answers (first + last)).confirms jito) ∧
    requests w = (List.range made).flatMap fun i : Nat =>
      attemptRequests jito (body (slippage + slippageStepPct * i)) (answers (first + i))

@[simp] theorem requests_nil : requests [] = [] := rfl

@[simp] theorem requests_append (w₁ w₂ : List Wire) :
    requests (w₁ ++ w₂) = requests w₁ ++ requests w₂ := List.filterMap_append ..

@[simp] theorem requests_tradeLocal (body : TradeBody) (array : Bool) (w : List Wire) :
    requests (.tradeLocal body array :: w) = (body, array) :: requests w := rfl

@[simp] theorem requests_sentIf (taken : Option Fate) (sigs : List Signature) :
    requests (sentIf taken sigs) = [] := by
  cases taken with
  | none => rfl
  | some fate =>
    rw [requests, sentIf, List.filterMap_map, List.filterMap_eq_nil_iff]
    intro sig _
    rfl

section Attempt

variable {jito : Option JitoConfig} {attempt : Nat} {action : Action} {body : TradeBody}
  {a : SubmitAnswers}

@[simp] theorem requests_confirm (p : Polling) (sig : Signature) (action : Action) :
    requests (confirm p sig action).wire = [] := by
  obtain ⟨v, ends⟩ := p.ends
  rw [confirm_eq p sig action ends]
  cases v <;> rfl

theorem requests_rpcOutcome : requests (rpcOutcome attempt action a).wire = [] := by
  rw [rpcOutcome]
  cases a.send.check with
  | error e => rfl
  | ok _ => exact requests_confirm _ _ _

theorem requests_sendRpc : requests (sendRpc attempt action body a).wire = [(body, false)] := by
  by_cases ready : a.rpcReady
  · rw [sendRpc_ready attempt action body ready]
    simp [requests_rpcOutcome]
  · obtain ⟨e, unsent⟩ := sendRpc_unready attempt action body ready
    rw [unsent]
    rfl

theorem requests_sendBundle (j : JitoConfig) : requests (sendBundle j attempt body a).wire =
    [({ body with priorityFee := j.tipSol }, true)] := by
  by_cases ready : a.bundleReady
  · rw [sendBundle_ready j attempt body ready]
    simp
  · obtain ⟨e, unsent⟩ := sendBundle_unready j attempt body ready
    rw [unsent]
    rfl

theorem requests_submit : requests (submit jito attempt action body false a).wire =
    attemptRequests jito body a := by
  cases jito with
  | none => exact requests_sendRpc
  | some j =>
    rw [attemptRequests]
    by_cases accepted : a.usesBundle (some j)
    · rw [submit_bundle j attempt action body accepted]
      simp [requests_sendBundle, accepted]
    · rw [submit_fallback j attempt action body accepted]
      simp [requests_sendBundle, requests_sendRpc, accepted]

end Attempt

section Escalate

variable {jito : Option JitoConfig} {action : Action} {body : ℚ → TradeBody}
  {answers : Nat → SubmitAnswers}

theorem escalate_climbs (left n : Nat) (slippage : ℚ) (lastErr : Option BoxError) :
    Climbs jito answers body slippage n left
      (escalate jito action body false answers left n slippage lastErr).wire := by
  induction left generalizing n slippage lastErr with
  | zero => exact ⟨0, le_rfl, fun i lt => by omega, fun lt => by omega, rfl⟩
  | succ left ih =>
    have here := @requests_submit jito n action (body slippage) (answers n)
    have ended := submit_isOk jito n action (body slippage) (answers n)
    have unraised : slippage + slippageStepPct * (0 : Nat) = slippage := by
      rw [Nat.cast_zero, mul_zero, add_zero]
    rw [escalate]
    cases result : (submit jito n action (body slippage) false (answers n)).result with
    | ok opt =>
      have done := ended.mp (by rw [result]; rfl)
      refine ⟨1, by omega, fun i lt => by omega, fun _ => ⟨0, rfl, done⟩, ?_⟩
      rw [here, List.range_one, List.flatMap_singleton, unraised]
      rfl
    | error e =>
      have failed : ¬ (answers n).confirms jito := by
        intro done
        have ok := ended.mpr done
        rw [result] at ok
        cases ok
      obtain ⟨made, few, before, stops, later⟩ :=
        ih (n + 1) (slippage + slippageStepPct) (some e)
      have shift : ∀ i, n + 1 + i = n + (i + 1) := fun i => by omega
      refine ⟨made + 1, by omega, ?_, ?_, ?_⟩
      · intro i lt
        cases i with
        | zero => exact failed
        | succ i =>
          rw [← shift]
          exact before i (by omega)
      · intro lt
        obtain ⟨last, rfl, done⟩ := stops (by omega)
        rw [shift] at done
        exact ⟨last + 1, rfl, done⟩
      · have raised : ∀ i : Nat, slippage + slippageStepPct + slippageStepPct * i =
            slippage + slippageStepPct * (i + 1 : Nat) := by
          intro i
          rw [Nat.cast_succ, mul_add, mul_one, add_assoc, add_comm slippageStepPct]
        simp only [shift, raised] at later
        dsimp only
        rw [Net.tell_bind, requests_append, here, later, List.range_succ_eq_map,
          List.flatMap_cons, unraised, List.flatMap_map]
        rfl

end Escalate

def BuyParams.body (p : BuyParams) (slippage : ℚ) : TradeBody :=
  { action := .buy, mint := p.mint, amount := .sol p.amountSol, denominatedInSol := true,
    slippage := slippage, priorityFee := p.priorityFeeSol }

def SellAllParams.body (p : SellAllParams) (slippage : ℚ) : TradeBody :=
  { action := .sell, mint := p.mint, amount := .all, denominatedInSol := false,
    slippage := slippage, priorityFee := p.priorityFeeSol }

section Calls

variable (jito : Option JitoConfig) (answers : Nat → SubmitAnswers)

theorem buy_climbs (p : BuyParams) :
    Climbs jito answers p.body p.slippagePct 0 3 (buy jito p false answers).wire :=
  escalate_climbs buyMaxAttempts 0 p.slippagePct none

theorem sellAll_climbs (p : SellAllParams) :
    Climbs jito answers p.body p.slippagePct 0 20 (sellAll jito p false answers).wire :=
  escalate_climbs sellMaxAttempts 0 p.slippagePct none

end Calls

end HadesPsTrader.Chain
