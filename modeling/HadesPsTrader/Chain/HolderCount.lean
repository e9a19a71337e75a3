/- Module: HadesPsTrader/Chain/HolderCount
   source: src/onchain.rs
   digest: The holders of a mint, counted from a scan of its token program. -/

import HadesPsTrader.Chain.Lookups
import HadesPsTrader.Chain.PoolReads

set_option autoImplicit false
set_option relaxedAutoImplicit false

namespace HadesPsTrader.Chain

open Interaction

def Pubkey.toBytes (key : Pubkey) : List UInt8 := (leBytes 32 key.value).reverse

theorem Pubkey.length_toBytes (key : Pubkey) : key.toBytes.length = 32 := by
  rw [toBytes, List.length_reverse, length_leBytes]

/-- `Memcmp::new_raw_bytes`: the accounts with these bytes at this offset. -/
structure Memcmp where
  offset : Nat
  bytes : List UInt8
  deriving DecidableEq

def Memcmp.Selects (m : Memcmp) (data : List UInt8) : Prop := m.bytes <+: data.drop m.offset

instance (m : Memcmp) (data : List UInt8) : Decidable (m.Selects data) :=
  inferInstanceAs (Decidable (_ <+: _))

/-- What the node answers during one count. The scan takes the program and one filter; it does not
constrain the size, since Token-2022 accounts may carry extensions. -/
structure CountRpc where
  mintAccount : Nat → AccountAnswer
  programAccounts : Pubkey → Memcmp → Except String (List StoredAccount)

inductive CountError
  | program (e : BalanceError)
  | accounts (message : String)
  deriving DecidableEq

/-- The predicate of the count: the account is long enough for an amount, and it is not zero. -/
def hasBalance {ε : Type} (acc : StoredAccount) : Except (Fault ε) Bool :=
  if splAmountEnd ≤ acc.data.length then
    (slice acc.data splAmountOffset splAmountEnd).map fun bytes => decide (0 < leValue bytes)
  else .ok false

def holderCount (rpc : CountRpc) (mint : Pubkey) : Except (Fault CountError) Nat := do
  let tokenProgram ← mapErr .program (resolveTokenProgram rpc.mintAccount)
  let accounts ← mapErr .accounts (rpc.programAccounts tokenProgram ⟨0, mint.toBytes⟩)
  let held ← accounts.mapM hasBalance
  return held.count true

section Lookup

variable {answers : Nat → AccountAnswer}

structure Resolves (answers : Nat → AccountAnswer) (program : Pubkey) : Prop where
  visible : Visible answers program
  token : some program = Pubkey.fromStr splTokenId ∨
    some program = Pubkey.fromStr token2022ProgramId

theorem resolveTokenProgram_eq_ok_iff {program : Pubkey} :
    resolveTokenProgram answers = .ok program ↔ Resolves answers program := by
  have found : ∀ owner, lookup answers = .ok owner ↔ Visible answers owner :=
    fun owner => lookup_eq_ok_iff
  rw [resolveTokenProgram, getAccountWithRetry_eq]
  cases seen : lookup answers with
  | error e =>
    constructor
    · nofun
    · rintro ⟨visible, _⟩
      cases seen.symm.trans ((found program).mpr visible)
  | ok owner =>
    have visible := (found owner).mp seen
    change (if _ then _ else _) = _ ↔ _
    split_ifs with token
    · constructor
      · intro same
        cases same
        exact ⟨visible, token⟩
      · intro resolves
        rw [visible.unique resolves.visible]
    · constructor
      · nofun
      · rintro ⟨visible', token'⟩
        rw [visible.unique visible'] at token
        exact absurd token' token

theorem Resolves.unique {program program' : Pubkey} (here : Resolves answers program)
    (there : Resolves answers program') : program = program' :=
  here.visible.unique there.visible

end Lookup

section Count

variable {program mint : Pubkey} {rpc : CountRpc} {chain : List StoredAccount}

/-- A token account of the mint under the program, with tokens on it. -/
structure Holding (program mint : Pubkey) (acc : StoredAccount) : Prop where
  owner : acc.owner = program
  mint : acc.data.take 32 = mint.toBytes
  sized : splAmountEnd ≤ acc.data.length
  positive : 0 < acc.amountField

theorem holding_iff (acc : StoredAccount) : Holding program mint acc ↔
    acc.owner = program ∧ acc.data.take 32 = mint.toBytes ∧ splAmountEnd ≤ acc.data.length ∧
      0 < acc.amountField := by
  constructor
  · rintro ⟨owner, mint, sized, positive⟩
    exact ⟨owner, mint, sized, positive⟩
  · rintro ⟨owner, mint, sized, positive⟩
    exact ⟨owner, mint, sized, positive⟩

instance : DecidablePred (Holding program mint) := fun acc =>
  decidable_of_iff _ (holding_iff acc).symm

/-- The scan answers with the accounts of the program that the filter selects, in some order. -/
def Scans (rpc : CountRpc) (chain : List StoredAccount) : Prop :=
  ∀ program filter accounts, rpc.programAccounts program filter = .ok accounts →
    accounts.Perm (chain.filter fun acc => acc.owner = program ∧ filter.Selects acc.data)

theorem hasBalance_eq {ε : Type} (acc : StoredAccount) : hasBalance acc =
    (.ok (decide (splAmountEnd ≤ acc.data.length ∧ 0 < acc.amountField)) :
      Except (Fault ε) Bool) := by
  rw [hasBalance]
  by_cases sized : splAmountEnd ≤ acc.data.length
  · have cut := slice_eq_ok (ε := ε) (show splAmountOffset ≤ splAmountEnd by decide) sized
    rw [if_pos sized, cut]
    simp only [sized, true_and]
    rfl
  · rw [if_neg sized]
    simp only [sized, false_and, decide_false]

theorem selects_mint (acc : StoredAccount) :
    Memcmp.Selects ⟨0, mint.toBytes⟩ acc.data ↔ acc.data.take 32 = mint.toBytes := by
  rw [Memcmp.Selects, List.drop_zero, List.prefix_iff_eq_take, Pubkey.length_toBytes, eq_comm]

theorem count_scanned {accounts : List StoredAccount} (scanned : accounts.Perm
      (chain.filter fun acc => acc.owner = program ∧ Memcmp.Selects ⟨0, mint.toBytes⟩ acc.data)) :
    (accounts.map fun acc => decide (splAmountEnd ≤ acc.data.length ∧ 0 < acc.amountField)).count
      true = chain.countP (Holding program mint) := by
  rw [List.count, List.countP_map, scanned.countP_eq, List.countP_filter]
  apply List.countP_congr
  intro acc _
  simp only [Function.comp_apply, beq_true, Bool.and_eq_true, decide_eq_true_eq, holding_iff,
    selects_mint]
  tauto

def CountError.Cause (rpc : CountRpc) (mint : Pubkey) : CountError → Prop
  | .program e => resolveTokenProgram rpc.mintAccount = .error e
  | .accounts message => ∃ program, Resolves rpc.mintAccount program ∧
      rpc.programAccounts program ⟨0, mint.toBytes⟩ = .error message

theorem holderCount_meets (scans : Scans rpc chain) (mint : Pubkey) :
    Meets (holderCount rpc mint) (fun n => ∃ program, Resolves rpc.mintAccount program ∧
        (∃ accounts, rpc.programAccounts program ⟨0, mint.toBytes⟩ = .ok accounts) ∧
        n = chain.countP (Holding program mint))
      (CountError.Cause rpc mint) := by
  unfold holderCount
  have resolves : Meets (mapErr .program (resolveTokenProgram rpc.mintAccount))
      (Resolves rpc.mintAccount) (CountError.Cause rpc mint) :=
    meets_mapErr (fun program => resolveTokenProgram_eq_ok_iff.mp) fun e refused => refused
  refine resolves.bind fun program resolved => ?_
  refine Meets.bind (meets_mapErr (fun _ => id) fun message refused => ⟨program, resolved, refused⟩)
    fun accounts scanned => ?_
  rw [mapM_ok (fun acc _ => hasBalance_eq acc), ok_bind]
  exact meets_ok ⟨program, resolved, ⟨accounts, scanned⟩,
    count_scanned (scans _ _ _ scanned)⟩

end Count

end HadesPsTrader.Chain
