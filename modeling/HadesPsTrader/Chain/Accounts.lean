/- Module: HadesPsTrader/Chain/Accounts
   source: src/pumpswap.rs, src/onchain.rs
   digest: Accounts as the node reports them and the fields of a token account. -/

import HadesPsTrader.Chain.Balance
import HadesPsTrader.Interaction.Bytes
import HadesPsTrader.Interaction.Faults

set_option autoImplicit false
set_option relaxedAutoImplicit false

namespace HadesPsTrader.Chain

open Interaction (Fault slice slice_eq_ok leValue)

/-- A vector: its length fits an `isize`. -/
abbrev Vec (α : Type) := {xs : List α // xs.length < 2 ^ 63}

structure StoredAccount where
  owner : Pubkey
  data : List UInt8
  deriving DecidableEq

def Pubkey.ofBytes (bytes : List UInt8) : Pubkey :=
  ⟨bytes.foldl (fun n b => n * 256 + b.toNat) 0⟩

-- SPL token account layout: mint(0..32), owner(32..64), amount(64..72)
def splOwnerOffset : Nat := 32
def splOwnerEnd : Nat := 64
def splAmountOffset : Nat := 64
def splAmountEnd : Nat := 72

/-- Bytes 32 to 64 of the data, where the account has them. -/
def StoredAccount.ownerField (a : StoredAccount) : Option Pubkey :=
  if splOwnerEnd ≤ a.data.length then
    some (.ofBytes ((a.data.drop splOwnerOffset).take (splOwnerEnd - splOwnerOffset)))
  else none

/-- The owner read from a listed token account, as the loops over `get_multiple_accounts` do. -/
def tokenOwner {ε : Type} : Option StoredAccount → Except (Fault ε) (Option Pubkey)
  | none => .ok none
  | some acc =>
    if splOwnerEnd ≤ acc.data.length then
      (slice acc.data splOwnerOffset splOwnerEnd).map fun bytes => some (.ofBytes bytes)
    else .ok none

theorem tokenOwner_eq {ε : Type} (acc : Option StoredAccount) :
    tokenOwner acc = (.ok (acc.bind StoredAccount.ownerField) : Except (Fault ε) _) := by
  cases acc with
  | none => rfl
  | some acc =>
    rw [tokenOwner, Option.bind_some, StoredAccount.ownerField]
    by_cases long : splOwnerEnd ≤ acc.data.length
    · have cut := slice_eq_ok (ε := ε) (show splOwnerOffset ≤ splOwnerEnd by decide) long
      rw [if_pos long, if_pos long, cut]
      rfl
    · rw [if_neg long, if_neg long]

/-- The answers of `get_multiple_accounts` are, position by position, what is at the keys. -/
def Positional (ask : List Pubkey → Except String (List (Option StoredAccount)))
    (stored : Pubkey → Option StoredAccount) : Prop :=
  ∀ keys accounts, ask keys = .ok accounts → accounts = keys.map stored

theorem positional_of_map {ask : List Pubkey → Except String (List (Option StoredAccount))}
    {stored : Pubkey → Option StoredAccount} (maps : ∀ keys, ask keys = .ok (keys.map stored)) :
    Positional ask stored := by
  intro keys accounts asked
  rw [maps] at asked
  cases asked
  rfl

end HadesPsTrader.Chain
