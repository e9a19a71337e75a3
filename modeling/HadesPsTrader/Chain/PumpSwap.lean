/- Module: HadesPsTrader/Chain/PumpSwap
   source: src/pumpswap.rs
   digest: Discovery of a pool's vaults and the reads of the vaults. -/

import HadesPsTrader.Chain.Accounts

set_option autoImplicit false
set_option relaxedAutoImplicit false

namespace HadesPsTrader.Chain

open Interaction

def pumpSwapProgramId : String := "pAMMBay6oceH9fJKBRHGP5D4bD4sWpmSwMn52FMfXEA"
def wsolMint : String := "So11111111111111111111111111111111111111112"

/-- pump.fun tokens always use 6 decimals. -/
def baseDecimalFactor : ℚ := 1000000
def solDecimalFactor : ℚ := 1000000000

structure PoolInfo where
  poolId : Pubkey
  baseVault : Pubkey
  quoteVault : Pubkey
  deriving DecidableEq

inductive PoolError
  | timedOut
  | largest (message : String)
  | noTokenAccounts (mint : Pubkey)
  | tokenAccounts (message : String)
  | noDecodable (mint : Pubkey)
  | owners (message : String)
  | noPool (mint : Pubkey)
  | wsolAccounts (message : String)
  | noSolVault (poolId : Pubkey)
  deriving DecidableEq

/-- What the node answers during one discovery. The first call has a timeout, after which there is
no answer; addresses come as text. -/
structure PoolRpc where
  largest : Pubkey → Option (Except String (List String))
  tokenAccounts : List Pubkey → Except String (List (Option StoredAccount))
  ownerAccounts : List Pubkey → Except String (List (Option StoredAccount))
  accountsByOwner : Pubkey → Pubkey → Except String (List String)

/-- The loop over the token accounts: owner and position of each decodable one. -/
def candidatesFrom {ε : Type} :
    Nat → List (Option StoredAccount) → Except (Fault ε) (List (Pubkey × Nat))
  | _, [] => .ok []
  | idx, acc :: accounts => do
    let owner ← tokenOwner acc
    let others ← candidatesFrom (idx + 1) accounts
    match owner with
    | some pk => return (pk, idx) :: others
    | none => return others

/-- The loop over the owners' accounts: the first that the program owns, with its base vault. -/
def pooledFrom {ε : Type} (program : Pubkey) (tokenKeys : List Pubkey)
    (candidates : List (Pubkey × Nat)) :
    Nat → List (Option StoredAccount) → Except (Fault ε) (Option (Pubkey × Pubkey))
  | _, [] => .ok none
  | i, acc :: accounts =>
    if acc.any fun acc => acc.owner = program then do
      let poolId ← index (candidates.map Prod.fst) i
      let candidate ← index candidates i
      let baseVault ← index tokenKeys candidate.2
      return some (poolId, baseVault)
    else pooledFrom program tokenKeys candidates (i + 1) accounts

/-- Steps 1 to 3 of `find_pool`: the pool and its base vault. -/
def findBaseVault (rpc : PoolRpc) (program mint : Pubkey) :
    Except (Fault PoolError) (Pubkey × Pubkey) := do
  let answer ← okOr .timedOut (rpc.largest mint)
  let largest ← mapErr .largest answer
  if largest = [] then throw (.failed (.noTokenAccounts mint))
  let tokenKeys := (largest.take 10).filterMap Pubkey.fromStr
  let tokenAccounts ← mapErr .tokenAccounts (rpc.tokenAccounts tokenKeys)
  let candidates ← candidatesFrom 0 tokenAccounts
  if candidates = [] then throw (.failed (.noDecodable mint))
  let ownerAccounts ← mapErr .owners (rpc.ownerAccounts (candidates.map Prod.fst))
  let found ← pooledFrom program tokenKeys candidates 0 ownerAccounts
  okOr (.noPool mint) found

def findPool (rpc : PoolRpc) (mint : Pubkey) : Except (Fault PoolError) PoolInfo := do
  let pumpSwapProgram ← unwrap (Pubkey.fromStr pumpSwapProgramId)
  let wsol ← unwrap (Pubkey.fromStr wsolMint)
  let (poolId, baseVault) ← findBaseVault rpc pumpSwapProgram mint
  let solAccounts ← mapErr .wsolAccounts (rpc.accountsByOwner poolId wsol)
  let quoteVault ← okOr (.noSolVault poolId) (solAccounts.head?.bind Pubkey.fromStr)
  return ⟨poolId, baseVault, quoteVault⟩

/-- A single read of a pool's vaults: SOL per display token, and the WSOL liquidity in SOL. -/
structure PoolState where
  priceSol : ℚ
  poolSol : ℚ
  deriving DecidableEq

inductive PoolReadError
  | timedOut (millis : Nat)
  | rpc (message : String)
  | noBaseVault (key : Pubkey)
  | noQuoteVault (key : Pubkey)
  | baseTooShort (bytes : Nat)
  | quoteTooShort (bytes : Nat)
  | baseZero
  deriving DecidableEq

/-- `fetch_pool_state`: one `get_multiple_accounts` call, with no answer after the timeout. -/
def fetchPoolState (ask : List Pubkey → Option (Except String (List (Option StoredAccount))))
    (pool : PoolInfo) (timeout : Nat) : Except (Fault PoolReadError) PoolState := do
  let answer ← okOr (.timedOut timeout) (ask [pool.baseVault, pool.quoteVault])
  let accounts ← mapErr .rpc answer
  let base ← okOr (.noBaseVault pool.baseVault) (← index accounts 0)
  let quote ← okOr (.noQuoteVault pool.quoteVault) (← index accounts 1)
  if base.data.length < splAmountEnd then throw (.failed (.baseTooShort base.data.length))
  if quote.data.length < splAmountEnd then throw (.failed (.quoteTooShort quote.data.length))
  let baseAmount := leValue (← slice base.data splAmountOffset splAmountEnd)
  let quoteAmount := leValue (← slice quote.data splAmountOffset splAmountEnd)
  if baseAmount = 0 then throw (.failed .baseZero)
  let poolSol := quoteAmount / solDecimalFactor
  let priceSol := poolSol / (baseAmount / baseDecimalFactor)
  return ⟨priceSol, poolSol⟩

theorem pumpSwapProgram_parses : ∃ program, Pubkey.fromStr pumpSwapProgramId = some program :=
  Option.isSome_iff_exists.mp (by decide)

theorem wsol_parses : ∃ wsol, Pubkey.fromStr wsolMint = some wsol :=
  Option.isSome_iff_exists.mp (by decide)

/-- The account at an owner's key is owned by the program. -/
def isPool (ownerAt : Pubkey → Option StoredAccount) (owner : Pubkey) : Bool :=
  (ownerAt owner).any fun acc => some acc.owner = Pubkey.fromStr pumpSwapProgramId

theorem isPool_eq {program : Pubkey} (parses : Pubkey.fromStr pumpSwapProgramId = some program)
    (ownerAt : Pubkey → Option StoredAccount) (owner : Pubkey) :
    isPool ownerAt owner = (ownerAt owner).any fun acc => acc.owner = program := by
  simp only [isPool, parses, Option.some.injEq]

end HadesPsTrader.Chain
