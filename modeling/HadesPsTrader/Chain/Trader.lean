/- Module: HadesPsTrader/Chain/Trader
   source: src/trader.rs
   digest: Buying and selling: slippage escalation, Jito bundle with RPC fallback, confirmation. -/

import HadesPsTrader.Market.Config

set_option autoImplicit false
set_option relaxedAutoImplicit false

namespace HadesPsTrader.Chain

open HadesPsTrader.Market

def confirmTimeout : Duration := fromSecs 60

def confirmPollInterval : Duration := fromMillis 500

def slippageStepPct : ℚ := 5
def buyMaxAttempts : Nat := 3
def sellMaxAttempts : Nat := 20

inductive Action
  | buy | sell
  deriving DecidableEq

inductive Route
  | bundle | rpc
  deriving DecidableEq

/-- A signature names one signed transaction: the attempt that signed it (each attempt has its own
slippage and blockhash), the route, and the place in the bundle. -/
structure Signature where
  attempt : Nat
  route : Route
  index : Nat
  deriving DecidableEq

inductive BoxError
  | transport (message : String)
  | tradeLocalHttp (status : Nat)
  | deserialize
  | jitoTradeLocalHttp (status : Nat)
  | jitoNotArray
  | jitoEmptyArray
  | jitoBase58
  | jitoDeserialize
  | jitoSerialize
  | sendBundleHttp (status : Nat)
  | sendBundleParse
  | sendBundleError (error : String)
  | jitoNoSignature
  | failedOnChain (action : Action) (sig : Signature) (error : String)
  | confirmTimedOut (action : Action) (sig : Signature)
  | exhausted (action : Action)
  deriving DecidableEq

inductive Amount
  | sol (amount : ℚ)
  | all
  deriving DecidableEq

/-- The JSON body of a trade-local request, less the wallet's own public key. -/
structure TradeBody where
  action : Action
  mint : String
  amount : Amount
  denominatedInSol : Bool
  slippage : ℚ
  priorityFee : ℚ
  pool : String := "pump-amm"
  deriving DecidableEq

/-- What becomes of a transaction that the network took. -/
inductive Fate
  | neverLands | lands
  deriving DecidableEq

/-- What an onlooker who also sees the chain writes down during a call. -/
inductive Wire
  | tradeLocal (body : TradeBody) (array : Bool)
  | sent (sig : Signature) (fate : Fate)
  | failed (sig : Signature)
  | confirmed (sig : Signature)
  deriving DecidableEq

/-- A network call: what it put on the wire, and its result. -/
structure Net (α : Type) where
  wire : List Wire
  result : Except BoxError α

namespace Net

variable {α β : Type}

instance : Monad Net where
  pure a := ⟨[], .ok a⟩
  bind m f := match m.result with
    | .ok a => ⟨m.wire ++ (f a).wire, (f a).result⟩
    | .error e => ⟨m.wire, .error e⟩

def fail (e : BoxError) : Net α := ⟨[], .error e⟩

def tell (w : List Wire) : Net Unit := ⟨w, .ok ()⟩

/-- `?` on a result. -/
def lift (r : Except BoxError α) : Net α := ⟨[], r⟩

@[simp] theorem pure_wire (a : α) : (pure a : Net α).wire = [] := rfl
@[simp] theorem pure_result (a : α) : (pure a : Net α).result = .ok a := rfl
@[simp] theorem fail_wire (e : BoxError) : (fail e : Net α).wire = [] := rfl
@[simp] theorem fail_result (e : BoxError) : (fail e : Net α).result = .error e := rfl

@[simp] theorem tell_bind (w : List Wire) (f : Unit → Net α) :
    (tell w >>= f) = ⟨w ++ (f ()).wire, (f ()).result⟩ := rfl

@[simp] theorem fail_bind (e : BoxError) (f : α → Net β) : (fail e >>= f) = fail e := rfl

@[simp] theorem lift_ok_bind (a : α) (f : α → Net β) : (lift (.ok a) >>= f) = f a := rfl

@[simp] theorem lift_error_bind (e : BoxError) (f : α → Net β) :
    (lift (.error e) >>= f) = fail e := rfl

theorem bind_of_ok {m : Net α} {a : α} (h : m.result = .ok a) (f : α → Net β) :
    (m >>= f) = ⟨m.wire ++ (f a).wire, (f a).result⟩ := by
  change (match m.result with
    | .ok a => (⟨m.wire ++ (f a).wire, (f a).result⟩ : Net β)
    | .error e => ⟨m.wire, .error e⟩) = _
  rw [h]

theorem bind_of_error {m : Net α} {e : BoxError} (h : m.result = .error e) (f : α → Net β) :
    (m >>= f) = ⟨m.wire, .error e⟩ := by
  change (match m.result with
    | .ok a => (⟨m.wire ++ (f a).wire, (f a).result⟩ : Net β)
    | .error e => ⟨m.wire, .error e⟩) = _
  rw [h]

end Net

section Answers

inductive Confirmation
  | processed | confirmed | finalized
  deriving DecidableEq

structure TxStatus where
  err : Option String
  confirmationStatus : Option Confirmation
  deriving DecidableEq

/-- One round of `get_signature_statuses`: its answer, with the first entry of `value` if there is
one, and what `started.elapsed()` reads afterwards. -/
structure Poll where
  answer : Except String (Option TxStatus)
  elapsed : Duration

/-- The rounds of one `confirm`. The sleep between two rounds keeps them apart. -/
structure Polling where
  poll : Nat → Poll
  paced : ∀ n, (poll n).elapsed + confirmPollInterval ≤ (poll (n + 1)).elapsed

/-- Rounds that are answered alike and take no time beyond their sleep. -/
def Polling.steady (answer : Except String (Option TxStatus)) : Polling where
  poll n := ⟨answer, n * confirmPollInterval⟩
  paced n := (Nat.succ_mul n confirmPollInterval).ge

/-- One entry of the Jito trade-local array, as far as signing and re-encoding it gets. -/
inductive EncodedTx
  | signed | badBase58 | badTransaction | unserializable
  deriving DecidableEq

inductive ArrayReply
  | transport (message : String)
  | response (status : Nat) (txs : Option (List EncodedTx))

inductive TradeLocalReply
  | transport (message : String)
  | response (status : Nat) (decodes : Bool)

/-- The block engine's answer; `json = none` is an unparsable body, `json = some e` a body with
that `error` field. `taken` says whether the engine took the bundle, whatever it answered. -/
inductive BundleReply
  | transport (message : String) (taken : Option Fate)
  | response (status : Nat) (json : Option (Option String)) (taken : Option Fate)

/-- The answer of `send_transaction_with_config`. An error does not say that the transaction was
not taken. -/
inductive SendReply
  | accepted (fate : Fate)
  | errored (message : String) (taken : Option Fate)

structure SubmitAnswers where
  jitoTradeLocal : ArrayReply
  jitoBlockhash : Except String Unit
  sendBundle : BundleReply
  tradeLocal : TradeLocalReply
  blockhash : Except String Unit
  send : SendReply
  polling : Polling

end Answers

def isSuccess (status : Nat) : Bool := 200 ≤ status && status < 300

def TxStatus.isConfirmed (s : TxStatus) : Bool :=
  s.confirmationStatus = some .confirmed || s.confirmationStatus = some .finalized

/-- The polling loop from round `n` on. The fuel bounds the rounds. -/
def confirmFrom (p : Polling) (sig : Signature) (action : Action) : Nat → Nat → Net Unit
  | 0, _ => .fail (.confirmTimedOut action sig)
  | fuel + 1, n =>
      let wait : Net Unit :=
        if confirmTimeout < (p.poll n).elapsed then .fail (.confirmTimedOut action sig)
        else confirmFrom p sig action fuel (n + 1)
      match (p.poll n).answer with
      | .error e => .fail (.transport e)
      | .ok none => wait
      | .ok (some status) => match status.err with
        | some err => do
            .tell [.failed sig]
            .fail (.failedOnChain action sig err)
        | none => if status.isConfirmed then .tell [.confirmed sig] else wait

/-- Rounds after which the timeout must have passed, since each round sleeps. -/
def confirmRounds : Nat := confirmTimeout / confirmPollInterval + 2

def confirm (p : Polling) (sig : Signature) (action : Action) : Net Unit :=
  confirmFrom p sig action confirmRounds 0

/-- Sign and re-encode the transactions of the array in order; the first failure ends it. -/
def encodeAll (attempt : Nat) : Nat → List EncodedTx → Except BoxError (List Signature)
  | _, [] => .ok []
  | _, .badBase58 :: _ => .error .jitoBase58
  | _, .badTransaction :: _ => .error .jitoDeserialize
  | _, .unserializable :: _ => .error .jitoSerialize
  | i, .signed :: rest => (encodeAll attempt (i + 1) rest).map (⟨attempt, .bundle, i⟩ :: ·)

/-- Whether the engine took the bundle; an accepting answer says so itself. -/
def BundleReply.taken : BundleReply → Option Fate
  | .transport _ taken => taken
  | .response status json taken =>
      if isSuccess status ∧ json = some none then some (taken.getD .neverLands) else taken

def BundleReply.check : BundleReply → Except BoxError Unit
  | .transport e _ => .error (.transport e)
  | .response status json _ =>
      if isSuccess status then match json with
        | none => .error .sendBundleParse
        | some (some e) => .error (.sendBundleError e)
        | some none => .ok ()
      else .error (.sendBundleHttp status)

def SendReply.taken : SendReply → Option Fate
  | .accepted fate => some fate
  | .errored _ taken => taken

def SendReply.check : SendReply → Except BoxError Unit
  | .accepted _ => .ok ()
  | .errored e _ => .error (.transport e)

def sentIf (taken : Option Fate) (sigs : List Signature) : List Wire :=
  match taken with
  | some fate => sigs.map (.sent · fate)
  | none => []

/-- Submit the trade as a Jito bundle; returns the first signature once the engine accepts. -/
def sendBundle (jito : JitoConfig) (attempt : Nat) (body : TradeBody) (a : SubmitAnswers) :
    Net Signature := do
  .tell [.tradeLocal { body with priorityFee := jito.tipSol } true]
  match a.jitoTradeLocal with
  | .transport e => .fail (.transport e)
  | .response status txs =>
    if isSuccess status then match txs with
      | none => .fail .jitoNotArray
      | some [] => .fail .jitoEmptyArray
      | some (tx :: rest) => do
          .lift (a.jitoBlockhash.mapError .transport)
          let sigs ← .lift (encodeAll attempt 0 (tx :: rest))
          .tell (sentIf a.sendBundle.taken sigs)
          .lift a.sendBundle.check
          match sigs.head? with
          | some sig => pure sig
          | none => .fail .jitoNoSignature
    else .fail (.jitoTradeLocalHttp status)

def sendRpc (attempt : Nat) (action : Action) (body : TradeBody) (a : SubmitAnswers) :
    Net (Option Signature) := do
  .tell [.tradeLocal body false]
  match a.tradeLocal with
  | .transport e => .fail (.transport e)
  | .response status decodes =>
    if isSuccess status then
      if decodes then do
        .lift (a.blockhash.mapError .transport)
        let sig : Signature := ⟨attempt, .rpc, 0⟩
        .tell (sentIf a.send.taken [sig])
        .lift a.send.check
        confirm a.polling sig action
        pure (some sig)
      else .fail .deserialize
    else .fail (.tradeLocalHttp status)

/-- HTTP, sign, send and confirm: one attempt. Only a failed bundle send falls back to RPC. -/
def submit (jito : Option JitoConfig) (attempt : Nat) (action : Action) (body : TradeBody)
    (dryRun : Bool) (a : SubmitAnswers) : Net (Option Signature) :=
  if dryRun then pure none
  else match jito with
    | none => sendRpc attempt action body a
    | some j =>
        let bundle := sendBundle j attempt body a
        match bundle.result with
        | .ok sig => do
            .tell bundle.wire
            confirm a.polling sig action
            pure (some sig)
        | .error _ => do
            .tell bundle.wire
            sendRpc attempt action body a

/-- `jito_settings()`. -/
def jitoSettings (cfg : Config) : Option JitoConfig :=
  if cfg.jito.enabled then some cfg.jito else none

structure BuyParams where
  mint : String
  symbol : Option String
  amountSol : ℚ
  slippagePct : ℚ
  priorityFeeSol : ℚ
  maxRetries : Nat
  deriving DecidableEq

structure SellAllParams where
  mint : String
  symbol : Option String
  slippagePct : ℚ
  priorityFeeSol : ℚ
  maxRetries : Nat
  deriving DecidableEq

/-- The escalation loop: attempts from number `n` on, each with a higher slippage, until one
returns. Every error of an attempt is retried. -/
def escalate (jito : Option JitoConfig) (action : Action) (body : ℚ → TradeBody) (dryRun : Bool)
    (answers : Nat → SubmitAnswers) : Nat → Nat → ℚ → Option BoxError → Net (Option Signature)
  | 0, _, _, lastErr => .fail (lastErr.getD (.exhausted action))
  | left + 1, n, slippage, _ =>
      let attempt := submit jito n action (body slippage) dryRun (answers n)
      match attempt.result with
      | .ok opt => ⟨attempt.wire, .ok opt⟩
      | .error e => do
          .tell attempt.wire
          escalate jito action body dryRun answers left (n + 1) (slippage + slippageStepPct)
            (some e)

def buy (jito : Option JitoConfig) (p : BuyParams) (dryRun : Bool)
    (answers : Nat → SubmitAnswers) : Net (Option Signature) :=
  escalate jito .buy (fun slippage =>
    { action := .buy, mint := p.mint, amount := .sol p.amountSol, denominatedInSol := true,
      slippage := slippage, priorityFee := p.priorityFeeSol })
    dryRun answers buyMaxAttempts 0 p.slippagePct none

def sellAll (jito : Option JitoConfig) (p : SellAllParams) (dryRun : Bool)
    (answers : Nat → SubmitAnswers) : Net (Option Signature) :=
  escalate jito .sell (fun slippage =>
    { action := .sell, mint := p.mint, amount := .all, denominatedInSol := false,
      slippage := slippage, priorityFee := p.priorityFeeSol })
    dryRun answers sellMaxAttempts 0 p.slippagePct none

end HadesPsTrader.Chain
