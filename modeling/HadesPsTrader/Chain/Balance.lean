/- Module: HadesPsTrader/Chain/Balance
   source: src/onchain.rs
   digest: Public keys and the token balance fetch that follows a buy. -/

import Mathlib.Tactic.Positivity
import HadesPsTrader.Market.Config

set_option autoImplicit false
set_option relaxedAutoImplicit false

namespace HadesPsTrader.Chain

/-- A 32-byte key, read as a big-endian number. -/
structure Pubkey where
  value : Nat
  deriving DecidableEq

def base58Digit (c : Char) : Option Nat :=
  let i := "123456789ABCDEFGHJKLMNPQRSTUVWXYZabcdefghijkmnopqrstuvwxyz".toList.idxOf c
  if i < 58 then some i else none

/-- `Pubkey::from_str`: base58 of exactly 32 bytes; each leading `1` is a zero byte. -/
def Pubkey.fromStr (s : String) : Option Pubkey :=
  let cs := s.toList
  if 44 < cs.length then none
  else (cs.mapM base58Digit).bind fun digits =>
    let n := digits.foldl (fun n d => n * 58 + d) 0
    let zeros := (digits.takeWhile (· = 0)).length
    let bytes := if n = 0 then 0 else Nat.log2 n / 8 + 1
    if zeros + bytes = 32 then some ⟨n⟩ else none

def splTokenId : String := "TokenkegQfeZyiNwAJbNbGKPFXCWuBvf9Ss623VQ5DA"
def token2022ProgramId : String := "TokenzQdBNbLqP5VEhdkAS6EPFLC1PHnBqCXEpPxuEb"

def accountLookupAttempts : Nat := 4

inductive BalanceError
  | getAccount (message : String)
  | notVisible
  | notSplToken (owner : Pubkey)
  | noBalance (attempts : Nat) (lastErr : Option String)
  deriving DecidableEq

/-- The owner of a queried account, as `get_account_with_retry` sees it in one round: an RPC error,
not visible yet, or the account. -/
abbrev AccountAnswer := Except String (Option Pubkey)

/-- An answer of `get_token_account_balance`: an RPC error, or an amount that may not parse as
`u64`, with the decimals. -/
inductive AmountAnswer
  | error (message : String)
  | amount (raw : Option Nat) (decimals : Nat)
  deriving DecidableEq

/-- The answers of one round of the balance fetch: the direct read, and the owner scan with one
answer for each listed account whose address parses. -/
structure BalanceRound where
  ata : AmountAnswer
  scan : Except String (List (Option AmountAnswer))

structure BalanceAnswers where
  mintAccount : Nat → AccountAnswer
  round : Nat → BalanceRound

structure TokenBalance where
  rawAmount : Nat
  decimals : Nat
  deriving DecidableEq

def TokenBalance.uiAmount (b : TokenBalance) : ℚ := b.rawAmount / 10 ^ b.decimals

theorem TokenBalance.uiAmount_pos {b : TokenBalance} (positive : 0 < b.rawAmount) :
    0 < b.uiAmount := by
  have : (0 : ℚ) < b.rawAmount := by exact_mod_cast positive
  unfold uiAmount
  positivity

def accountFrom (answers : Nat → AccountAnswer) : Nat → Nat → Except BalanceError Pubkey
  | 0, _ => .error .notVisible
  | left + 1, n => match answers n with
    | .ok (some owner) => .ok owner
    | .ok none => accountFrom answers left (n + 1)
    | .error e => .error (.getAccount e)

def getAccountWithRetry (answers : Nat → AccountAnswer) : Except BalanceError Pubkey :=
  accountFrom answers accountLookupAttempts 0

def resolveTokenProgram (answers : Nat → AccountAnswer) : Except BalanceError Pubkey :=
  (getAccountWithRetry answers).bind fun owner =>
    if some owner = Pubkey.fromStr splTokenId ∨ some owner = Pubkey.fromStr token2022ProgramId then
      .ok owner
    else .error (.notSplToken owner)

def AmountAnswer.balance : AmountAnswer → Option TokenBalance
  | .error _ => none
  | .amount none _ => none
  | .amount (some raw) decimals => if 0 < raw then some ⟨raw, decimals⟩ else none

/-- What a failed direct read leaves in `last_err`. -/
def AmountAnswer.lastErr : AmountAnswer → String
  | .error e => e
  | .amount none _ => "token amount parse"
  | .amount (some _) _ => "ATA balance is zero"

def scanOwnerForMint (accounts : List (Option AmountAnswer)) : Option TokenBalance :=
  accounts.findSome? fun a => a.bind AmountAnswer.balance

/-- Rounds `n` on of the fetch: the direct read first, then the scan. -/
def balanceFrom (attempts : Nat) (round : Nat → BalanceRound) :
    Nat → Nat → Option String → Except BalanceError TokenBalance
  | 0, _, lastErr => .error (.noBalance attempts lastErr)
  | left + 1, n, _ => match (round n).ata.balance with
    | some b => .ok b
    | none => match (round n).scan with
      | .error e => balanceFrom attempts round left (n + 1) (some e)
      | .ok accounts => match scanOwnerForMint accounts with
        | some b => .ok b
        | none => balanceFrom attempts round left (n + 1) (some (round n).ata.lastErr)

def fetchTokenBalance (attempts : Nat) (answers : BalanceAnswers) :
    Except BalanceError TokenBalance :=
  (resolveTokenProgram answers.mintAccount).bind fun _ =>
    balanceFrom attempts answers.round attempts 0 none

private theorem balance_pos {a : AmountAnswer} {b : TokenBalance} (h : a.balance = some b) :
    0 < b.rawAmount := by
  unfold AmountAnswer.balance at h
  split at h
  · cases h
  · cases h
  · next raw decimals =>
      split_ifs at h with positive
      cases h
      exact positive

theorem balanceFrom_pos (attempts : Nat) (round : Nat → BalanceRound) (left n : Nat)
    (lastErr : Option String) {b : TokenBalance}
    (h : balanceFrom attempts round left n lastErr = .ok b) : 0 < b.rawAmount := by
  induction left generalizing n lastErr with
  | zero => cases h
  | succ left ih =>
      rw [balanceFrom] at h
      split at h
      · next found =>
          cases h
          exact balance_pos found
      · split at h
        · exact ih _ _ h
        · split at h
          · next found =>
              cases h
              obtain ⟨a, _, ha⟩ := List.exists_of_findSome?_eq_some found
              obtain ⟨a, rfl, ha⟩ := Option.bind_eq_some_iff.mp ha
              exact balance_pos ha
          · exact ih _ _ h

theorem fetchTokenBalance_pos {attempts : Nat} {answers : BalanceAnswers} {b : TokenBalance}
    (h : fetchTokenBalance attempts answers = .ok b) : 0 < b.rawAmount := by
  unfold fetchTokenBalance at h
  cases program : resolveTokenProgram answers.mintAccount with
  | error e => rw [program] at h; cases h
  | ok owner =>
      rw [program] at h
      exact balanceFrom_pos attempts answers.round attempts 0 none h

end HadesPsTrader.Chain
