/- Module: HadesPsTrader/Chain/Holders
   source: src/onchain.rs
   digest: The share of the supply in the largest token accounts of a mint. -/

import Mathlib.Data.List.Dedup
import HadesPsTrader.Chain.PumpSwap
import HadesPsTrader.Interaction.Ranking
import HadesPsTrader.Market.Position

set_option autoImplicit false
set_option relaxedAutoImplicit false

namespace HadesPsTrader.Chain

open Interaction
open Market (digitsValue)

/-- `str::parse` of an unsigned integer below `bound`: digits after an optional plus sign. -/
def parseUnsigned (bound : Nat) (s : String) : Option Nat :=
  let digits := match s.toList with
    | '+' :: rest => rest
    | cs => cs
  if digits = [] then none else (digitsValue digits).filter (· < bound)

theorem parseUnsigned_lt {bound : Nat} {s : String} {n : Nat} (h : parseUnsigned bound s = some n) :
    n < bound := by
  unfold parseUnsigned at h
  simp only at h
  split_ifs at h
  exact of_decide_eq_true (Option.filter_eq_some_iff.mp h).2

/-- An entry of `getTokenLargestAccounts`, as text. -/
structure LargestAccount where
  address : String
  amount : String

inductive HolderError
  | largest (message : String)
  | noAccounts (mint : Pubkey)
  | noDecodable (mint : Pubkey)
  | tokenAccounts (message : String)
  | owners (message : String)
  | supply (message : String)
  | supplyAmount (text : String)
  | zeroSupply (mint : Pubkey)
  deriving DecidableEq

structure HolderRpc where
  largest : Pubkey → Except String (Vec LargestAccount)
  tokenAccounts : List Pubkey → Except String (List (Option StoredAccount))
  ownerAccounts : List Pubkey → Except String (List (Option StoredAccount))
  supply : Pubkey → Except String String

def entryOf (a : LargestAccount) : Option (Pubkey × Nat) :=
  (Pubkey.fromStr a.address).bind fun pk =>
    (parseUnsigned (2 ^ 64) a.amount).map fun raw => (pk, raw)

def pumpswapOwners (program : Pubkey) (uniqueOwners : List Pubkey)
    (ownerAccounts : List (Option StoredAccount)) : List Pubkey :=
  (uniqueOwners.zip ownerAccounts).filterMap fun (pk, acc) =>
    if acc.any fun acc => acc.owner = program then some pk else none

/-- The owners to exclude; with no owner to ask about there is no call. -/
def resolveExcluded (rpc : HolderRpc) (program : Pubkey) (uniqueOwners : List Pubkey) :
    Except (Fault HolderError) (List Pubkey) :=
  if uniqueOwners = [] then .ok []
  else do
    let ownerAccounts ← mapErr .owners (rpc.ownerAccounts uniqueOwners)
    return pumpswapOwners program uniqueOwners ownerAccounts

/-- Whether an account with this owner counts. Without an owner it does. -/
def keeps (bondingPda : Pubkey) (excluded : List Pubkey) : Option Pubkey → Bool
  | some o => o ≠ bondingPda ∧ o ∉ excluded
  | none => true

/-- The raw amounts of the kept accounts. The address of the bonding curve of a mint is derived by
the program runtime. -/
def keptAmounts (bondingCurvePda : Pubkey → Pubkey) (rpc : HolderRpc) (mint : Pubkey)
    (entries : List (Pubkey × Nat)) : Except (Fault HolderError) (List Nat) := do
  let taAccounts ← mapErr .tokenAccounts (rpc.tokenAccounts (entries.map Prod.fst))
  let owners ← taAccounts.mapM tokenOwner
  let bondingPda := bondingCurvePda mint
  let pumpSwapProgram ← unwrap (Pubkey.fromStr pumpSwapProgramId)
  let uniqueOwners := ((owners.filterMap id).filter (· ≠ bondingPda)).eraseDups
  let excluded ← resolveExcluded rpc pumpSwapProgram uniqueOwners
  return ((entries.zip owners).filter fun e => keeps bondingPda excluded e.2).map fun e => e.1.2

def topNHolderConcentration (bondingCurvePda : Pubkey → Pubkey) (rpc : HolderRpc) (mint : Pubkey)
    (n : Nat) : Except (Fault HolderError) ℚ := do
  let largest ← mapErr .largest (rpc.largest mint)
  if largest.val = [] then throw (.failed (.noAccounts mint))
  let entries := largest.val.filterMap entryOf
  if entries = [] then throw (.failed (.noDecodable mint))
  let kept ← keptAmounts bondingCurvePda rpc mint entries
  let top := (kept.insertionSort (· ≥ ·)).take n
  let sumTop ← top.foldlM (addWithin (2 ^ 128)) 0
  let supply ← mapErr .supply (rpc.supply mint)
  let totalRaw ← okOr (.supplyAmount supply) (parseUnsigned (2 ^ 128) supply)
  if totalRaw = 0 then throw (.failed (.zeroSupply mint))
  return sumTop / totalRaw

def HolderError.Cause (rpc : HolderRpc) (mint : Pubkey) : HolderError → Prop
  | .largest message => rpc.largest mint = .error message
  | .noAccounts key => key = mint ∧ ∃ largest, rpc.largest mint = .ok largest ∧ largest.val = []
  | .noDecodable key => key = mint ∧
      ∃ largest, rpc.largest mint = .ok largest ∧ largest.val.filterMap entryOf = []
  | .tokenAccounts message => ∃ keys, rpc.tokenAccounts keys = .error message
  | .owners message => ∃ keys, rpc.ownerAccounts keys = .error message
  | .supply message => rpc.supply mint = .error message
  | .supplyAmount text => rpc.supply mint = .ok text ∧ parseUnsigned (2 ^ 128) text = none
  | .zeroSupply key => key = mint ∧
      ∃ text, rpc.supply mint = .ok text ∧ parseUnsigned (2 ^ 128) text = some 0

section Contract

variable (bondingCurvePda : Pubkey → Pubkey) (tokenAt ownerAt : Pubkey → Option StoredAccount)
  (mint : Pubkey)

def ownerOf (key : Pubkey) : Option Pubkey := (tokenAt key).bind StoredAccount.ownerField

/-- Neither the bonding curve of the mint nor a pool owns the account; or no owner is known. -/
def Counts (entry : Pubkey × Nat) : Prop :=
  ∀ o, ownerOf tokenAt entry.1 = some o → o ≠ bondingCurvePda mint ∧ isPool ownerAt o = false

instance : DecidablePred (Counts bondingCurvePda tokenAt ownerAt mint) := fun entry =>
  decidable_of_iff (∀ o ∈ ownerOf tokenAt entry.1, o ≠ bondingCurvePda mint ∧
    isPool ownerAt o = false) Iff.rfl

end Contract

end HadesPsTrader.Chain
