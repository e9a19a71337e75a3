/- Module: HadesPsTrader/Chain/PoolReads
   source: src/pumpswap.rs
   digest: The pool states that a read of the vaults can return. -/

import HadesPsTrader.Chain.PumpSwap

set_option autoImplicit false
set_option relaxedAutoImplicit false

namespace HadesPsTrader.Chain

open Interaction

/-- The state of a pool whose vaults hold these amounts, in base units. -/
def PoolState.ofAmounts (quoteAmount baseAmount : Nat) : PoolState where
  priceSol := quoteAmount / solDecimalFactor / (baseAmount / baseDecimalFactor)
  poolSol := quoteAmount / solDecimalFactor

/-- Some read of some pool returns this state. -/
def Readable (state : PoolState) : Prop :=
  ∃ ask pool timeout, fetchPoolState ask pool timeout = .ok state

/-- Bytes 64 to 72 of the data. -/
def StoredAccount.amountField (a : StoredAccount) : Nat :=
  leValue ((a.data.drop splAmountOffset).take (splAmountEnd - splAmountOffset))

theorem amountField_lt (a : StoredAccount) : a.amountField < 2 ^ 64 := by
  have short : ((a.data.drop splAmountOffset).take (splAmountEnd - splAmountOffset)).length ≤ 8 :=
    List.length_take_le _ _
  exact (leValue_lt _).trans_le (Nat.pow_le_pow_right (by decide) short)

section Reads

variable {ask : List Pubkey → Option (Except String (List (Option StoredAccount)))}
  {pool : PoolInfo} {base quote : StoredAccount} {rest : List (Option StoredAccount)}
  {timeout : Nat} {state : PoolState}

theorem fetchPoolState_eq
    (answer : ask [pool.baseVault, pool.quoteVault] = some (.ok (some base :: some quote :: rest)))
    (timeout : Nat) : fetchPoolState ask pool timeout =
      if base.data.length < splAmountEnd then .error (.failed (.baseTooShort base.data.length))
      else if quote.data.length < splAmountEnd then
        .error (.failed (.quoteTooShort quote.data.length))
      else if base.amountField = 0 then .error (.failed .baseZero)
      else .ok (.ofAmounts quote.amountField base.amountField) := by
  unfold fetchPoolState
  rw [answer]
  change (if base.data.length < splAmountEnd then _ else _) = _
  by_cases baseShort : base.data.length < splAmountEnd
  · rw [if_pos baseShort, if_pos baseShort]
    rfl
  rw [if_neg baseShort, if_neg baseShort]
  by_cases quoteShort : quote.data.length < splAmountEnd
  · rw [if_pos quoteShort, if_pos quoteShort]
    rfl
  rw [if_neg quoteShort, if_neg quoteShort]
  have ordered : splAmountOffset ≤ splAmountEnd := by decide
  rw [slice_eq_ok ordered (not_lt.mp baseShort), slice_eq_ok ordered (not_lt.mp quoteShort)]
  by_cases zero : base.amountField = 0
  · rw [if_pos zero]
    change (if base.amountField = 0 then _ else _) = _
    rw [if_pos zero]
    rfl
  · rw [if_neg zero]
    change (if base.amountField = 0 then _ else _) = _
    rw [if_neg zero]
    rfl

theorem answer_of_returned (returned : fetchPoolState ask pool timeout = .ok state) :
    ∃ base quote rest,
      ask [pool.baseVault, pool.quoteVault] = some (.ok (some base :: some quote :: rest)) := by
  unfold fetchPoolState at returned
  cases answer : ask [pool.baseVault, pool.quoteVault] with
  | none =>
    rw [answer] at returned
    cases returned
  | some result =>
    rw [answer] at returned
    match result with
    | .error _ => cases returned
    | .ok [] => cases returned
    | .ok (none :: _) => cases returned
    | .ok [some _] => cases returned
    | .ok (some _ :: none :: _) => cases returned
    | .ok (some base :: some quote :: rest) => exact ⟨base, quote, rest, rfl⟩

theorem amounts_of_returned (returned : fetchPoolState ask pool timeout = .ok state) :
    ∃ quoteAmount baseAmount, quoteAmount < 2 ^ 64 ∧ baseAmount < 2 ^ 64 ∧ baseAmount ≠ 0 ∧
      state = .ofAmounts quoteAmount baseAmount := by
  obtain ⟨base, quote, rest, answer⟩ := answer_of_returned returned
  rw [fetchPoolState_eq answer] at returned
  split_ifs at returned with _ _ zero
  cases returned
  exact ⟨_, _, amountField_lt quote, amountField_lt base, zero, rfl⟩

end Reads

/-- A token account that holds an amount. -/
def tokenAccount (amount : Nat) : StoredAccount :=
  ⟨⟨0⟩, List.replicate splAmountOffset 0 ++ leBytes 8 amount⟩

theorem length_tokenAccount (amount : Nat) : (tokenAccount amount).data.length = splAmountEnd := by
  rw [tokenAccount, List.length_append, List.length_replicate, length_leBytes]
  rfl

theorem amountField_tokenAccount {amount : Nat} (fits : amount < 2 ^ 64) :
    (tokenAccount amount).amountField = amount := by
  have field : ((tokenAccount amount).data.drop splAmountOffset).take
      (splAmountEnd - splAmountOffset) = leBytes 8 amount := by
    rw [tokenAccount, List.drop_left' List.length_replicate]
    exact List.take_of_length_le (length_leBytes 8 amount).le
  rw [StoredAccount.amountField, field]
  exact leValue_leBytes fits

/-- The reads return the states of all pools whose base vault is not empty, with any amounts. -/
theorem readable_iff (state : PoolState) : Readable state ↔
    ∃ quoteAmount baseAmount, quoteAmount < 2 ^ 64 ∧ baseAmount < 2 ^ 64 ∧ baseAmount ≠ 0 ∧
      state = .ofAmounts quoteAmount baseAmount := by
  constructor
  · rintro ⟨ask, pool, timeout, returned⟩
    exact amounts_of_returned returned
  · rintro ⟨quoteAmount, baseAmount, quoteFits, baseFits, nonzero, rfl⟩
    let ask : List Pubkey → Option (Except String (List (Option StoredAccount))) :=
      fun _ => some (.ok [some (tokenAccount baseAmount), some (tokenAccount quoteAmount)])
    let pool : PoolInfo := ⟨⟨0⟩, ⟨1⟩, ⟨2⟩⟩
    have answer : ask [pool.baseVault, pool.quoteVault] =
        some (.ok [some (tokenAccount baseAmount), some (tokenAccount quoteAmount)]) := rfl
    have read := fetchPoolState_eq answer 0
    rw [length_tokenAccount, length_tokenAccount, if_neg (lt_irrefl _), if_neg (lt_irrefl _),
      amountField_tokenAccount quoteFits, amountField_tokenAccount baseFits, if_neg nonzero] at read
    exact ⟨ask, _, _, read⟩

theorem Readable.priceSol_eq_zero_iff {state : PoolState} (readable : Readable state) :
    state.priceSol = 0 ↔ state.poolSol = 0 := by
  obtain ⟨quoteAmount, baseAmount, -, -, nonzero, rfl⟩ := (readable_iff _).mp readable
  have tokens : (baseAmount : ℚ) / baseDecimalFactor ≠ 0 :=
    div_ne_zero (Nat.cast_ne_zero.mpr nonzero) (by norm_num [baseDecimalFactor])
  rw [PoolState.ofAmounts, div_eq_zero_iff, or_iff_left tokens]

end HadesPsTrader.Chain
