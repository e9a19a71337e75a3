/- Module: HadesPsTrader/Chain/BuyRetries
   source: src/trader.rs
   digest: When the retries of one buy call keep to a single transaction that can land. -/

import HadesPsTrader.Chain.AtMostOnce

set_option autoImplicit false
set_option relaxedAutoImplicit false

namespace HadesPsTrader.Chain

open HadesPsTrader.Market

/-! ### Confirmation -/

section Confirm

variable {p : Polling} {sig : Signature} {action : Action}

theorem confirm_quiet : ¬ Sends (confirm p sig action).wire := by
  obtain ⟨v, ends⟩ := p.ends
  rw [confirm_eq p sig action ends]
  cases v <;> simp [Sends, Verdict.outcome]

theorem confirm_about : ∀ e ∈ (confirm p sig action).wire, ∀ sig', e.signature = some sig' →
    sig' = sig := by
  obtain ⟨v, ends⟩ := p.ends
  rw [confirm_eq p sig action ends]
  cases v <;> simp [Verdict.outcome, Wire.signature]

theorem failed_mem_confirm :
    Wire.failed sig ∈ (confirm p sig action).wire ↔ ∃ err, p.Ends (.failed err) := by
  obtain ⟨v, ends⟩ := p.ends
  have only (v' : Verdict) : p.Ends v' ↔ v' = v := ⟨fun h => h.unique ends, fun h => h ▸ ends⟩
  rw [confirm_eq p sig action ends]
  simp only [only]
  cases v <;> simp [Verdict.outcome]

theorem confirm_isOk (p : Polling) (sig : Signature) (action : Action) :
    (confirm p sig action).result.isOk ↔ p.Ends .confirmed := by
  obtain ⟨v, ends⟩ := p.ends
  have only (v' : Verdict) : p.Ends v' ↔ v' = v := ⟨fun h => h.unique ends, fun h => h ▸ ends⟩
  rw [confirm_eq p sig action ends, only]
  cases v <;> simp [Verdict.outcome, Except.isOk, Except.toBool]

end Confirm

/-! ### One attempt -/

section Attempt

variable {jito : Option JitoConfig} {attempt : Nat} {action : Action} {body : TradeBody}
  {a : SubmitAnswers}

theorem rpcOutcome_quiet : ¬ Sends (rpcOutcome attempt action a).wire := by
  rw [rpcOutcome]
  cases a.send.check with
  | error e => simp [Sends]
  | ok u => exact confirm_quiet

private theorem rpcOutcome_about : ∀ e ∈ (rpcOutcome attempt action a).wire, ∀ sig,
    e.signature = some sig → sig = ⟨attempt, .rpc, 0⟩ := by
  rw [rpcOutcome]
  cases a.send.check with
  | error e => simp
  | ok u => exact confirm_about

private theorem failed_mem_rpcOutcome :
    Wire.failed ⟨attempt, .rpc, 0⟩ ∈ (rpcOutcome attempt action a).wire ↔
      a.send.check.isOk ∧ ∃ err, a.polling.Ends (.failed err) := by
  rw [rpcOutcome]
  cases a.send.check with
  | error e => simp [Except.isOk, Except.toBool]
  | ok u => simpa [Except.isOk, Except.toBool] using failed_mem_confirm

private theorem rpcOutcome_isOk (attempt : Nat) (action : Action) (a : SubmitAnswers) :
    (rpcOutcome attempt action a).result.isOk ↔
    a.send.check.isOk ∧ a.polling.Ends .confirmed := by
  rw [rpcOutcome]
  cases a.send.check with
  | error e => simp [Except.isOk, Except.toBool]
  | ok u =>
      have ended := confirm_isOk a.polling ⟨attempt, .rpc, 0⟩ action
      simpa [Except.isOk, Except.toBool] using ended

private theorem sendRpc_account (attempt : Nat) (action : Action) (body : TradeBody)
    (a : SubmitAnswers) : Account (sendRpc attempt action body a).wire
    (fun sig => sig = ⟨attempt, .rpc, 0⟩) (a.rpcReady ∧ a.send.taken.isSome) True
    (a.rpcReady ∧ a.send.taken.isSome ∧
      ¬(a.send.check.isOk ∧ ∃ err, a.polling.Ends (.failed err))) := by
  by_cases ready : a.rpcReady
  · rw [sendRpc_ready attempt action body ready]
    refine (Account.handover _ _ rpcOutcome_quiet (by simp) rpcOutcome_about).congr
      (fun _ h => h) ?_ ?_ fun _ => ?_
    · simp [ready]
    · simp
    · simp [ready, failed_mem_rpcOutcome]
  · obtain ⟨e, h⟩ := sendRpc_unready attempt action body ready
    rw [h]
    refine (Account.handover none [] (by simp [Sends] : ¬ Sends [])
      (by simp) (by simp)).congr (fun _ h => h) ?_ ?_ fun _ => ?_
    · simp [ready]
    · simp
    · simp [ready]

private theorem sendBundle_account (attempt : Nat) (body : TradeBody) (a : SubmitAnswers)
    (j : JitoConfig) {shown : List Wire} (quiet : ¬ Sends shown)
    (about : ∀ e ∈ shown, ∀ sig, e.signature = some sig → sig = ⟨attempt, .bundle, 0⟩) :
    Account ((sendBundle j attempt body a).wire ++ shown)
      (fun sig => sig.attempt = attempt ∧ sig.route = .bundle)
      (a.bundleReady ∧ a.sendBundle.taken.isSome)
      (a.bundleReady ∧ a.sendBundle.taken.isSome → a.bundleTxs.length = 1)
      (a.bundleReady ∧ a.sendBundle.taken.isSome ∧
        Wire.failed ⟨attempt, .bundle, 0⟩ ∉ shown) := by
  have about' : ∀ e ∈ shown, ∀ sig, e.signature = some sig →
      sig.attempt = attempt ∧ sig.route = .bundle := fun e he sig hsig => by
    simp [about e he sig hsig]
  by_cases ready : a.bundleReady
  · have positive : 0 < a.bundleTxs.length := by
      simp only [SubmitAnswers.bundleReady, Bool.and_eq_true, decide_eq_true_eq] at ready
      exact List.length_pos_iff.mpr ready.1.1
    rw [sendBundle_ready j attempt body ready]
    refine (Account.handover _ _ quiet (by simp [bundleSignatures]) about').congr
      (fun _ h => h) ?_ ?_ fun single => ?_
    · simp [ready, bundleSignatures, positive.ne']
    · simp only [ready, true_and, bundleSignatures, List.length_map, List.length_range]
      exact imp_congr_right fun _ => by omega
    · -- a taken bundle has one transaction, the one whose signature is returned
      simp only [ready, true_and] at single ⊢
      refine and_congr_right ?_
      intro isSome
      simp [single isSome, bundleSignatures]
  · obtain ⟨e, h⟩ := sendBundle_unready j attempt body ready
    rw [h]
    refine (Account.handover none [] quiet (by simp) about').congr
      (fun _ h => h) ?_ ?_ fun _ => ?_
    · simp [ready]
    · simp [ready]
    · simp [ready]

private theorem send_taken (ok : a.send.check.isOk) : a.send.taken.isSome := by
  cases send : a.send with
  | accepted fate => simp [SendReply.taken]
  | errored e taken => simp [send, SendReply.check, Except.isOk, Except.toBool] at ok

theorem submit_account (jito : Option JitoConfig) (attempt : Nat) (action : Action)
    (body : TradeBody) (a : SubmitAnswers) :
    Account (submit jito attempt action body false a).wire (fun sig => sig.attempt = attempt)
      (a.sends jito) (a.sendsOnce jito) (a.leavesOpen jito) := by
  cases jito with
  | none =>
      have rpc := sendRpc_account attempt action body a
      refine rpc.congr (fun sig h => by rw [h]) ?_ ?_ fun _ => ?_
      · simp [SubmitAnswers.sends, SubmitAnswers.bundleTaken, SubmitAnswers.rpcTaken,
          SubmitAnswers.usesBundle]
      · simp [SubmitAnswers.sendsOnce, SubmitAnswers.bundleTaken]
      · simp only [SubmitAnswers.leavesOpen, SubmitAnswers.sends, SubmitAnswers.bundleTaken,
          SubmitAnswers.rpcTaken, SubmitAnswers.usesBundle, SubmitAnswers.polled]
        grind
  | some j =>
      by_cases accepted : a.usesBundle (some j)
      · rw [submit_bundle j attempt action body accepted]
        refine (sendBundle_account attempt body a j confirm_quiet confirm_about).congr
          (fun sig h => h.1) ?_ ?_ fun _ => ?_
        · simp [SubmitAnswers.sends, SubmitAnswers.bundleTaken, SubmitAnswers.rpcTaken, accepted]
        · simp [SubmitAnswers.sendsOnce, SubmitAnswers.bundleTaken, SubmitAnswers.rpcTaken,
            accepted]
        · rw [failed_mem_confirm]
          simp [SubmitAnswers.leavesOpen, SubmitAnswers.sends, SubmitAnswers.bundleTaken,
            SubmitAnswers.rpcTaken, SubmitAnswers.polled, accepted, and_assoc]
      · rw [submit_fallback j attempt action body accepted]
        have bundle := sendBundle_account attempt body a j (by simp [Sends] : ¬ Sends [])
          (by simp)
        rw [List.append_nil] at bundle
        have rpc := sendRpc_account attempt action body a
        have apart (sig : Signature) (bundled : sig.attempt = attempt ∧ sig.route = .bundle) :
            ¬ sig = ⟨attempt, .rpc, 0⟩ := by
          rintro rfl
          cases bundled.2
        refine (bundle.append rpc apart).congr ?_ ?_ ?_ ?_
        · rintro sig (h | rfl)
          · exact h.1
          · rfl
        · simp [SubmitAnswers.sends, SubmitAnswers.bundleTaken, SubmitAnswers.rpcTaken, accepted]
        · simp only [SubmitAnswers.sendsOnce, SubmitAnswers.bundleTaken, SubmitAnswers.rpcTaken]
          grind
        · have taken := send_taken (a := a)
          simp only [SubmitAnswers.sendsOnce, SubmitAnswers.leavesOpen, SubmitAnswers.sends,
            SubmitAnswers.bundleTaken, SubmitAnswers.rpcTaken, SubmitAnswers.polled]
          grind

private theorem sendRpc_isOk (attempt : Nat) (action : Action) (body : TradeBody)
    (a : SubmitAnswers) : (sendRpc attempt action body a).result.isOk ↔
    a.rpcReady ∧ a.send.check.isOk ∧ a.polling.Ends .confirmed := by
  by_cases ready : a.rpcReady
  · rw [sendRpc_ready attempt action body ready, ← rpcOutcome_isOk attempt action a]
    cases (rpcOutcome attempt action a).result <;>
      simp [Except.map, Except.isOk, Except.toBool, ready]
  · obtain ⟨e, h⟩ := sendRpc_unready attempt action body ready
    simp [h, ready, Except.isOk, Except.toBool]

theorem submit_isOk (jito : Option JitoConfig) (attempt : Nat) (action : Action)
    (body : TradeBody) (a : SubmitAnswers) :
    (submit jito attempt action body false a).result.isOk ↔ a.confirms jito := by
  cases jito with
  | none =>
      refine (sendRpc_isOk attempt action body a).trans ?_
      simp [SubmitAnswers.confirms, SubmitAnswers.polled, SubmitAnswers.usesBundle, and_assoc]
  | some j =>
      by_cases accepted : a.usesBundle (some j)
      · rw [submit_bundle j attempt action body accepted]
        have ended := confirm_isOk a.polling ⟨attempt, .bundle, 0⟩ action
        cases result : (confirm a.polling ⟨attempt, .bundle, 0⟩ action).result <;>
          simp [result, Except.map, Except.isOk, Except.toBool, SubmitAnswers.confirms,
            SubmitAnswers.polled, accepted] at ended ⊢ <;> exact ended
      · rw [submit_fallback j attempt action body accepted]
        refine (sendRpc_isOk attempt action body a).trans ?_
        simp [SubmitAnswers.confirms, SubmitAnswers.polled, accepted, and_assoc]

end Attempt

/-! ### All attempts of a call -/

/-- Among the `left` attempts from number `n` on, attempt `m` is made: none before it succeeds. -/
def ReachedFrom (jito : Option JitoConfig) (answers : Nat → SubmitAnswers) (n left m : Nat) :
    Prop :=
  n ≤ m ∧ m < n + left ∧ ∀ k, n ≤ k → k < m → ¬ (answers k).confirms jito

section Escalate

variable {jito : Option JitoConfig} {action : Action} {body : ℚ → TradeBody}
  {answers : Nat → SubmitAnswers}

private theorem reachedFrom_zero {n m : Nat} : ¬ ReachedFrom jito answers n 0 m :=
  fun ⟨le, lt, _⟩ => by omega

theorem reachedFrom_confirmed {n left m : Nat} (done : (answers n).confirms jito) :
    ReachedFrom jito answers n (left + 1) m ↔ m = n := by
  constructor
  · rintro ⟨le, -, failed⟩
    by_contra ne
    exact failed n le_rfl (by omega) done
  · rintro rfl
    exact ⟨le_rfl, by omega, fun k le lt => by omega⟩

theorem reachedFrom_failed {n left m : Nat} (failed : ¬ (answers n).confirms jito) :
    ReachedFrom jito answers n (left + 1) m ↔
      m = n ∨ ReachedFrom jito answers (n + 1) left m := by
  constructor
  · rintro ⟨le, lt, before⟩
    rcases Nat.eq_or_lt_of_le le with rfl | after
    · exact .inl rfl
    · exact .inr ⟨after, by omega, fun k le lt => before k (by omega) lt⟩
  · rintro (rfl | ⟨le, lt, before⟩)
    · exact ⟨le_rfl, by omega, fun k le lt => by omega⟩
    · refine ⟨by omega, by omega, fun k le' lt' => ?_⟩
      rcases Nat.eq_or_lt_of_le le' with rfl | after
      · exact failed
      · exact before k after lt'

/-- The wire of the escalation loop: every attempt made sends at most once, and not while an
earlier one is open. -/
theorem escalate_account (left n : Nat) (slippage : ℚ) (lastErr : Option BoxError) :
    Account (escalate jito action body false answers left n slippage lastErr).wire
      (fun sig => n ≤ sig.attempt)
      (∃ m, ReachedFrom jito answers n left m ∧ (answers m).sends jito)
      (∀ m, ReachedFrom jito answers n left m → (answers m).sendsOnce jito ∧
        ((answers m).sends jito → ∀ k, n ≤ k → k < m → ¬ (answers k).leavesOpen jito))
      (∃ m, ReachedFrom jito answers n left m ∧ (answers m).leavesOpen jito) := by
  induction left generalizing n slippage lastErr with
  | zero =>
      rw [escalate]
      constructor
      · simp
      · simp [Sends, reachedFrom_zero]
      · simp [SentOnceSettled, reachedFrom_zero]
      · simp [LeavesOpen, reachedFrom_zero]
  | succ left ih =>
      have here := submit_account jito n action (body slippage) (answers n)
      have ended := submit_isOk jito n action (body slippage) (answers n)
      rw [escalate]
      cases result : (submit jito n action (body slippage) false (answers n)).result with
      | ok opt =>
          have done := ended.mp (by rw [result]; rfl)
          simp only
          refine here.congr (fun sig h => h.ge) ?_ ?_ fun _ => ?_
          · simp [reachedFrom_confirmed done]
          · simp only [reachedFrom_confirmed done, forall_eq]
            exact (and_iff_left fun _ k le lt => by omega).symm
          · simp [reachedFrom_confirmed done]
      | error e =>
          have failed : ¬ (answers n).confirms jito := fun done => by
            have := ended.mpr done
            rw [result] at this
            cases this
          simp only [Net.tell_bind]
          refine (here.append (ih (n + 1) _ _) fun sig h h' => by omega).congr
            (fun sig h => by omega) ?_ ?_ fun _ => ?_
          · simp only [reachedFrom_failed failed, or_and_right, exists_or, exists_eq_left]
          · simp only [reachedFrom_failed failed]
            constructor
            · rintro ⟨once, later, closed⟩ m (rfl | reached)
              · exact ⟨once, fun _ k le lt => by omega⟩
              · refine ⟨(later m reached).1, fun sends k le lt => ?_⟩
                rcases Nat.eq_or_lt_of_le le with rfl | after
                · exact closed ⟨m, reached, sends⟩
                · exact (later m reached).2 sends k after lt
            · intro all
              refine ⟨(all n (.inl rfl)).1, fun m reached => ?_, ?_⟩
              · exact ⟨(all m (.inr reached)).1, fun sends k le lt =>
                  (all m (.inr reached)).2 sends k (by omega) lt⟩
              · rintro ⟨m, reached, sends⟩
                exact (all m (.inr reached)).2 sends n le_rfl reached.1
          · simp only [reachedFrom_failed failed, or_and_right, exists_or, exists_eq_left]

theorem escalate_isOk (left n : Nat) (slippage : ℚ) (lastErr : Option BoxError) :
    (escalate jito action body false answers left n slippage lastErr).result.isOk ↔
      ∃ m, ReachedFrom jito answers n left m ∧ (answers m).confirms jito := by
  induction left generalizing n slippage lastErr with
  | zero => simp [escalate, reachedFrom_zero, Except.isOk, Except.toBool]
  | succ left ih =>
      have here := submit_isOk jito n action (body slippage) (answers n)
      rw [escalate]
      cases result : (submit jito n action (body slippage) false (answers n)).result with
      | ok opt =>
          have done := here.mp (by rw [result]; rfl)
          simp [reachedFrom_confirmed done, done, Except.isOk, Except.toBool]
      | error e =>
          have failed : ¬ (answers n).confirms jito := fun done => by
            have := here.mpr done
            rw [result] at this
            cases this
          simp only [Net.tell_bind, reachedFrom_failed failed, or_and_right, exists_or,
            exists_eq_left, failed, false_or]
          exact ih (n + 1) _ _

end Escalate

def Reached (jito : Option JitoConfig) (answers : Nat → SubmitAnswers) (n : Nat) : Prop :=
  n < buyMaxAttempts ∧ ∀ m < n, ¬ (answers m).confirms jito

/-- Every attempt of the call that is made hands over at most one transaction, and none while a
transaction of an earlier attempt has not been seen to fail on chain. -/
def ResendsSettled (jito : Option JitoConfig) (answers : Nat → SubmitAnswers) : Prop :=
  ∀ n, Reached jito answers n → (answers n).sendsOnce jito ∧
    ((answers n).sends jito → ∀ m < n, ¬ (answers m).leavesOpen jito)

theorem reached_iff (jito : Option JitoConfig) (answers : Nat → SubmitAnswers) (n : Nat) :
    ReachedFrom jito answers 0 buyMaxAttempts n ↔ Reached jito answers n := by
  simp [ReachedFrom, Reached]

/-- A live buy is at-most-once exactly when it never resends over an open transaction. -/
theorem buy_atMostOnce_iff (jito : Option JitoConfig) (p : BuyParams)
    (answers : Nat → SubmitAnswers) :
    AtMostOnce (buy jito p false answers).wire ↔ ResendsSettled jito answers := by
  rw [atMostOnce_iff, buy, (escalate_account buyMaxAttempts 0 p.slippagePct none).settled_iff]
  simp [reached_iff, ResendsSettled]

/-- A node that takes every transaction, which lands, and never reports a status of it. -/
def lateLanding : SubmitAnswers where
  jitoTradeLocal := .transport ""
  jitoBlockhash := .ok ()
  sendBundle := .transport "" none
  tradeLocal := .response 200 true
  blockhash := .ok ()
  send := .accepted .lands
  polling := .steady (.ok none)

/-- Three confirmations time out, and three buys of one call land. -/
theorem buy_resends_after_timeout : ¬ AtMostOnce (buy none
    { mint := "mint", symbol := none, amountSol := 1, slippagePct := 10, priorityFeeSol := 0,
      maxRetries := 0 } false fun _ => lateLanding).wire := by
  intro once
  have three : (mayLand (buy none
    { mint := "mint", symbol := none, amountSol := 1, slippagePct := 10, priorityFeeSol := 0,
      maxRetries := 0 } false fun _ => lateLanding).wire).length = 3 := by decide +kernel
  have := once.2
  omega

end HadesPsTrader.Chain
