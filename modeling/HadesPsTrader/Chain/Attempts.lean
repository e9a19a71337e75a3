/- Module: HadesPsTrader/Chain/Attempts
   source: src/trader.rs
   digest: What each attempt of a trade sends and leaves behind, and when a buy can land twice. -/

import Mathlib.Data.Nat.Find
import HadesPsTrader.Chain.Trader

set_option autoImplicit false
set_option relaxedAutoImplicit false

namespace HadesPsTrader.Chain

open HadesPsTrader.Market

/-! ### Confirmation -/

inductive Verdict
  | rpcError (message : String)
  | failed (error : String)
  | confirmed
  | timedOut
  deriving DecidableEq

/-- What one round decides; `none` keeps polling. -/
def Poll.verdict (q : Poll) : Option Verdict :=
  let wait := if confirmTimeout < q.elapsed then some .timedOut else none
  match q.answer with
  | .error e => some (.rpcError e)
  | .ok none => wait
  | .ok (some status) => match status.err with
    | some err => some (.failed err)
    | none => if status.isConfirmed then some .confirmed else wait

/-- The rounds end with `v`: the first conclusive one says so. -/
def Polling.Ends (p : Polling) (v : Verdict) : Prop :=
  ∃ n, (∀ m < n, (p.poll m).verdict = none) ∧ (p.poll n).verdict = some v

theorem Polling.Ends.unique {p : Polling} {v v' : Verdict} (h : p.Ends v) (h' : p.Ends v') :
    v = v' := by
  obtain ⟨n, before, at_n⟩ := h
  obtain ⟨n', before', at_n'⟩ := h'
  rcases Nat.lt_trichotomy n n' with lt | rfl | gt
  · rw [before' n lt] at at_n
    cases at_n
  · exact Option.some.inj (at_n.symm.trans at_n')
  · rw [before n' gt] at at_n'
    cases at_n'

theorem Polling.elapsed_ge (p : Polling) (n : Nat) :
    n * confirmPollInterval ≤ (p.poll n).elapsed := by
  induction n with
  | zero => omega
  | succ n ih =>
      rw [Nat.succ_mul]
      exact (Nat.add_le_add_right ih _).trans (p.paced n)

theorem Polling.conclusive (p : Polling) : ∃ n < confirmRounds, (p.poll n).verdict ≠ none := by
  refine ⟨121, by decide, ?_⟩
  have late : confirmTimeout < (p.poll 121).elapsed :=
    lt_of_lt_of_le (by decide) (p.elapsed_ge 121)
  simp only [Poll.verdict, if_pos late]
  cases (p.poll 121).answer with
  | error e => simp
  | ok status =>
      cases status with
      | none => simp
      | some status => cases err : status.err <;> by_cases h : status.isConfirmed <;> simp [err, h]

theorem Polling.ends (p : Polling) : ∃ v, p.Ends v := by
  obtain ⟨n, _, conclusive⟩ := p.conclusive
  have first := Nat.find_spec (p := fun n => (p.poll n).verdict ≠ none) ⟨n, conclusive⟩
  obtain ⟨v, hv⟩ := Option.ne_none_iff_exists'.mp first
  exact ⟨v, _, fun m hm => not_not.mp (Nat.find_min (p := fun n => (p.poll n).verdict ≠ none) _ hm),
    hv⟩

def Verdict.outcome (sig : Signature) (action : Action) : Verdict → Net Unit
  | .rpcError e => .fail (.transport e)
  | .failed err => ⟨[.failed sig], .error (.failedOnChain action sig err)⟩
  | .confirmed => ⟨[.confirmed sig], .ok ()⟩
  | .timedOut => .fail (.confirmTimedOut action sig)

private theorem confirmFrom_round (p : Polling) (sig : Signature) (action : Action)
    (fuel n : Nat) : confirmFrom p sig action (fuel + 1) n = match (p.poll n).verdict with
      | some v => v.outcome sig action
      | none => confirmFrom p sig action fuel (n + 1) := by
  rw [confirmFrom]
  unfold Poll.verdict
  cases (p.poll n).answer with
  | error e => rfl
  | ok status =>
      cases status with
      | none => by_cases late : confirmTimeout < (p.poll n).elapsed <;> simp [late, Verdict.outcome]
      | some status =>
          cases err : status.err with
          | some e => simp [err, Verdict.outcome, Net.fail]
          | none =>
              by_cases done : status.isConfirmed
              · simp [err, done, Verdict.outcome, Net.tell]
              · by_cases late : confirmTimeout < (p.poll n).elapsed <;>
                  simp [err, done, late, Verdict.outcome]

private theorem confirmFrom_eq (p : Polling) (sig : Signature) (action : Action) (fuel n k : Nat)
    {v : Verdict} (start : n ≤ k) (fueled : k < n + fuel)
    (before : ∀ m, n ≤ m → m < k → (p.poll m).verdict = none)
    (at_k : (p.poll k).verdict = some v) :
    confirmFrom p sig action fuel n = v.outcome sig action := by
  induction fuel generalizing n with
  | zero => omega
  | succ fuel ih =>
      rw [confirmFrom_round]
      rcases Nat.eq_or_lt_of_le start with rfl | lt
      · rw [at_k]
      · rw [before n le_rfl lt]
        exact ih (n + 1) lt (by omega) fun m hm hk => before m (by omega) hk

theorem confirm_eq (p : Polling) (sig : Signature) (action : Action) {v : Verdict}
    (ends : p.Ends v) : confirm p sig action = v.outcome sig action := by
  obtain ⟨k, before, at_k⟩ := ends
  obtain ⟨n, small, conclusive⟩ := p.conclusive
  have le : k ≤ n := by
    by_contra gt
    exact conclusive (before n (by omega))
  exact confirmFrom_eq p sig action confirmRounds 0 k (Nat.zero_le k) (by omega)
    (fun m _ hm => before m hm) at_k

/-! ### One attempt, read off its answers -/

namespace SubmitAnswers

/-- The transactions of a usable Jito trade-local answer. -/
def bundleTxs (a : SubmitAnswers) : List EncodedTx :=
  match a.jitoTradeLocal with
  | .transport _ => []
  | .response status txs => if isSuccess status then txs.getD [] else []

def bundleReady (a : SubmitAnswers) : Bool :=
  a.bundleTxs ≠ [] && a.bundleTxs.all (· = .signed) && a.jitoBlockhash.isOk

def rpcReady (a : SubmitAnswers) : Bool :=
  (match a.tradeLocal with
    | .transport _ => false
    | .response status decodes => isSuccess status && decodes) && a.blockhash.isOk

/-- The block engine accepts the bundle, so that there is no fallback. -/
def usesBundle (jito : Option JitoConfig) (a : SubmitAnswers) : Bool :=
  jito.isSome && a.bundleReady && a.sendBundle.check.isOk

def bundleTaken (jito : Option JitoConfig) (a : SubmitAnswers) : Bool :=
  jito.isSome && a.bundleReady && a.sendBundle.taken.isSome

def rpcTaken (jito : Option JitoConfig) (a : SubmitAnswers) : Bool :=
  !usesBundle jito a && a.rpcReady && a.send.taken.isSome

def sends (jito : Option JitoConfig) (a : SubmitAnswers) : Prop :=
  bundleTaken jito a ∨ rpcTaken jito a

/-- At most one transaction of the attempt is taken: a bundle of one, or the plain one. -/
def sendsOnce (jito : Option JitoConfig) (a : SubmitAnswers) : Prop :=
  (bundleTaken jito a → a.bundleTxs.length = 1) ∧ ¬(bundleTaken jito a ∧ rpcTaken jito a)

def polled (jito : Option JitoConfig) (a : SubmitAnswers) : Prop :=
  usesBundle jito a ∨ (a.rpcReady ∧ a.send.check.isOk)

/-- A transaction is taken and no on-chain failure of it shows up. -/
def leavesOpen (jito : Option JitoConfig) (a : SubmitAnswers) : Prop :=
  sends jito a ∧ ¬(polled jito a ∧ ∃ err, a.polling.Ends (.failed err))

def confirms (jito : Option JitoConfig) (a : SubmitAnswers) : Prop :=
  polled jito a ∧ a.polling.Ends .confirmed

end SubmitAnswers

/-! ### What one attempt puts on the wire -/

def bundleSignatures (attempt k : Nat) : List Signature :=
  (List.range k).map (⟨attempt, .bundle, ·⟩)

private theorem encodeAll_signed (attempt i : Nat) (txs : List EncodedTx)
    (signed : txs.all (· = .signed)) : encodeAll attempt i txs =
      .ok ((List.range' i txs.length).map (⟨attempt, .bundle, ·⟩)) := by
  induction txs generalizing i with
  | nil => rfl
  | cons tx txs ih =>
      simp only [List.all_cons, Bool.and_eq_true, decide_eq_true_eq] at signed
      obtain ⟨rfl, signed⟩ := signed
      rw [encodeAll, ih (i + 1) signed]
      rfl

private theorem encodeAll_unsigned (attempt i : Nat) (txs : List EncodedTx)
    (unsigned : txs.all (· = .signed) = false) : ∃ e, encodeAll attempt i txs = .error e := by
  induction txs generalizing i with
  | nil => simp at unsigned
  | cons tx txs ih =>
      cases tx with
      | signed =>
          obtain ⟨e, he⟩ := ih (i + 1) (by simpa using unsigned)
          exact ⟨e, by rw [encodeAll, he]; rfl⟩
      | badBase58 => exact ⟨_, rfl⟩
      | badTransaction => exact ⟨_, rfl⟩
      | unserializable => exact ⟨_, rfl⟩

private theorem blockhash_ok {r : Except String Unit} (ok : r.isOk) :
    r.mapError BoxError.transport = .ok () := by
  cases r with
  | ok u => rfl
  | error e => cases ok

private theorem blockhash_error {r : Except String Unit} (failed : ¬ r.isOk) :
    ∃ e, r.mapError BoxError.transport = .error e := by
  cases r with
  | ok u => exact absurd rfl failed
  | error e => exact ⟨_, rfl⟩

theorem sendBundle_ready (jito : JitoConfig) (attempt : Nat) (body : TradeBody)
    {a : SubmitAnswers} (ready : a.bundleReady) : sendBundle jito attempt body a =
      ⟨.tradeLocal { body with priorityFee := jito.tipSol } true ::
          sentIf a.sendBundle.taken (bundleSignatures attempt a.bundleTxs.length),
        a.sendBundle.check.map fun _ => ⟨attempt, .bundle, 0⟩⟩ := by
  simp only [SubmitAnswers.bundleReady, SubmitAnswers.bundleTxs, Bool.and_eq_true] at ready ⊢
  obtain ⟨⟨nonempty, signed⟩, blockhash⟩ := ready
  rw [sendBundle, Net.tell_bind]
  cases reply : a.jitoTradeLocal with
  | transport e => simp [reply] at nonempty
  | response status txs =>
      simp only [reply] at nonempty signed ⊢
      by_cases success : isSuccess status
      · simp only [success, if_true] at nonempty signed ⊢
        match txs with
        | none => simp at nonempty
        | some [] => simp at nonempty
        | some (tx :: rest) =>
            simp only [Option.getD_some] at signed ⊢
            rw [blockhash_ok blockhash, Net.lift_ok_bind, encodeAll_signed attempt 0 _ signed,
              Net.lift_ok_bind, Net.tell_bind, bundleSignatures, List.range_eq_range']
            cases a.sendBundle.check with
            | error e => simp [Except.map]
            | ok u => simp [Except.map, List.range'_succ]
      · simp [success] at nonempty

theorem sendBundle_unready (jito : JitoConfig) (attempt : Nat) (body : TradeBody)
    {a : SubmitAnswers} (unready : ¬ a.bundleReady) : ∃ e, sendBundle jito attempt body a =
      ⟨[.tradeLocal { body with priorityFee := jito.tipSol } true], .error e⟩ := by
  simp only [SubmitAnswers.bundleReady, SubmitAnswers.bundleTxs, Bool.and_eq_true] at unready
  rw [sendBundle, Net.tell_bind]
  cases reply : a.jitoTradeLocal with
  | transport e => exact ⟨_, rfl⟩
  | response status txs =>
      simp only [reply] at unready ⊢
      by_cases success : isSuccess status
      · simp only [success, if_true] at unready ⊢
        match txs with
        | none => exact ⟨_, rfl⟩
        | some [] => exact ⟨_, rfl⟩
        | some (tx :: rest) =>
            by_cases blockhash : a.jitoBlockhash.isOk
            · have unsigned : (tx :: rest).all (· = .signed) = false := by
                simpa [blockhash] using unready
              obtain ⟨e, he⟩ := encodeAll_unsigned attempt 0 _ unsigned
              exact ⟨e, by dsimp only; rw [blockhash_ok blockhash, Net.lift_ok_bind, he]; rfl⟩
            · obtain ⟨e, he⟩ := blockhash_error blockhash
              exact ⟨e, by dsimp only; rw [he]; rfl⟩
      · exact ⟨_, by simp only [success]; rfl⟩

def rpcOutcome (attempt : Nat) (action : Action) (a : SubmitAnswers) : Net Unit :=
  match a.send.check with
  | .error e => .fail e
  | .ok () => confirm a.polling ⟨attempt, .rpc, 0⟩ action

theorem sendRpc_ready (attempt : Nat) (action : Action) (body : TradeBody) {a : SubmitAnswers}
    (ready : a.rpcReady) : sendRpc attempt action body a =
      ⟨.tradeLocal body false :: (sentIf a.send.taken [⟨attempt, .rpc, 0⟩] ++
          (rpcOutcome attempt action a).wire),
        (rpcOutcome attempt action a).result.map fun _ => some ⟨attempt, .rpc, 0⟩⟩ := by
  simp only [SubmitAnswers.rpcReady, Bool.and_eq_true] at ready
  obtain ⟨answered, blockhash⟩ := ready
  rw [sendRpc, Net.tell_bind]
  cases reply : a.tradeLocal with
  | transport e => simp [reply] at answered
  | response status decodes =>
      simp only [reply, Bool.and_eq_true] at answered ⊢
      simp only [answered.1, answered.2, if_true]
      rw [blockhash_ok blockhash, Net.lift_ok_bind, Net.tell_bind, rpcOutcome]
      cases a.send.check with
      | error e => simp [Except.map]
      | ok u =>
          rw [Net.lift_ok_bind]
          cases ended : (confirm a.polling ⟨attempt, .rpc, 0⟩ action).result with
          | error e => rw [Net.bind_of_error ended]; simp [Except.map]
          | ok v => rw [Net.bind_of_ok ended]; simp [Except.map]

theorem sendRpc_unready (attempt : Nat) (action : Action) (body : TradeBody) {a : SubmitAnswers}
    (unready : ¬ a.rpcReady) : ∃ e, sendRpc attempt action body a =
      ⟨[.tradeLocal body false], .error e⟩ := by
  simp only [SubmitAnswers.rpcReady, Bool.and_eq_true] at unready
  rw [sendRpc, Net.tell_bind]
  cases reply : a.tradeLocal with
  | transport e => exact ⟨_, rfl⟩
  | response status decodes =>
      simp only [reply, Bool.and_eq_true] at unready ⊢
      by_cases success : isSuccess status
      · by_cases decoded : decodes
        · have blockhash : ¬ a.blockhash.isOk := fun ok => unready ⟨⟨success, decoded⟩, ok⟩
          obtain ⟨e, he⟩ := blockhash_error blockhash
          exact ⟨e, by simp only [success, decoded, if_true]; rw [he]; rfl⟩
        · exact ⟨_, by simp only [success, decoded]; rfl⟩
      · exact ⟨_, by simp only [success]; rfl⟩

theorem submit_bundle (j : JitoConfig) (attempt : Nat) (action : Action) (body : TradeBody)
    {a : SubmitAnswers} (accepted : a.usesBundle (some j)) :
    submit (some j) attempt action body false a =
      ⟨(sendBundle j attempt body a).wire ++ (confirm a.polling ⟨attempt, .bundle, 0⟩ action).wire,
        (confirm a.polling ⟨attempt, .bundle, 0⟩ action).result.map
          fun _ => some ⟨attempt, .bundle, 0⟩⟩ := by
  simp only [SubmitAnswers.usesBundle, Option.isSome_some, Bool.true_and, Bool.and_eq_true]
    at accepted
  obtain ⟨ready, ok⟩ := accepted
  have result : (sendBundle j attempt body a).result = .ok ⟨attempt, .bundle, 0⟩ := by
    rw [sendBundle_ready j attempt body ready]
    cases check : a.sendBundle.check with
    | error e => simp [check, Except.isOk, Except.toBool] at ok
    | ok u => rfl
  simp only [submit, Bool.false_eq_true, if_false, result, Net.tell_bind]
  cases ended : (confirm a.polling ⟨attempt, .bundle, 0⟩ action).result with
  | error e => rw [Net.bind_of_error ended]; simp [Except.map]
  | ok u => rw [Net.bind_of_ok ended]; simp [Except.map]

theorem submit_fallback (j : JitoConfig) (attempt : Nat) (action : Action) (body : TradeBody)
    {a : SubmitAnswers} (rejected : ¬ a.usesBundle (some j)) :
    submit (some j) attempt action body false a =
      ⟨(sendBundle j attempt body a).wire ++ (sendRpc attempt action body a).wire,
        (sendRpc attempt action body a).result⟩ := by
  simp only [SubmitAnswers.usesBundle, Option.isSome_some, Bool.true_and, Bool.and_eq_true]
    at rejected
  have result : ∃ e, (sendBundle j attempt body a).result = .error e := by
    by_cases ready : a.bundleReady
    · rw [sendBundle_ready j attempt body ready]
      cases check : a.sendBundle.check with
      | error e => exact ⟨e, rfl⟩
      | ok u => exact absurd ⟨ready, by simp [check, Except.isOk, Except.toBool]⟩ rejected
    · obtain ⟨e, h⟩ := sendBundle_unready j attempt body ready
      exact ⟨e, by rw [h]⟩
  obtain ⟨e, result⟩ := result
  simp only [submit, Bool.false_eq_true, if_false, result, Net.tell_bind]

end HadesPsTrader.Chain
