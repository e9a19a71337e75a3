/- Module: HadesPsTrader/Chain/Whales
   source: src/onchain.rs
   digest: When the concentration of the accounts is the concentration of their owners. -/

import HadesPsTrader.Chain.Concentration
import HadesPsTrader.Interaction.Holdings

set_option autoImplicit false
set_option relaxedAutoImplicit false

namespace HadesPsTrader.Chain

open Interaction

/-- Everything the node holds for one concentration check. -/
structure HolderSnapshot where
  largest : Vec LargestAccount
  tokenAt : Pubkey → Option StoredAccount
  ownerAt : Pubkey → Option StoredAccount
  supply : String

namespace HolderSnapshot

def rpc (S : HolderSnapshot) : HolderRpc where
  largest := fun _ => .ok S.largest
  tokenAccounts := fun keys => .ok (keys.map S.tokenAt)
  ownerAccounts := fun keys => .ok (keys.map S.ownerAt)
  supply := fun _ => .ok S.supply

def entries (S : HolderSnapshot) : List (Pubkey × Nat) := S.largest.val.filterMap entryOf

/-- The raw amounts of the listed accounts under their owners. -/
def holdings (S : HolderSnapshot) : List (Pubkey × Nat) :=
  S.entries.filterMap fun e => (ownerOf S.tokenAt e.1).map fun o => (o, e.2)

/-- Neither the bonding curve nor a pool. -/
def isHolder (S : HolderSnapshot) (bondingPda o : Pubkey) : Bool :=
  o ≠ bondingPda ∧ isPool S.ownerAt o = false

def held (S : HolderSnapshot) (bondingPda : Pubkey) : List (Pubkey × Nat) :=
  S.holdings.filter fun h => S.isHolder bondingPda h.1

/-- Some account is listed, every listed account has an owner, and the supply is positive. -/
structure Complete (S : HolderSnapshot) (supply : Nat) : Prop where
  listed : S.entries ≠ []
  decodable : ∀ e ∈ S.entries, ∃ o, ownerOf S.tokenAt e.1 = some o
  supplied : parseUnsigned (2 ^ 128) S.supply = some supply
  positive : 0 < supply

/-- The snapshots differ only in how the tokens of one owner lie in that owner's accounts. -/
structure Redistributed (owner : Pubkey) (S S' : HolderSnapshot) : Prop where
  supply : S.supply = S'.supply
  ownerAt : S.ownerAt = S'.ownerAt
  others : (S.holdings.filter fun h => h.1 ≠ owner).Perm (S'.holdings.filter fun h => h.1 ≠ owner)
  total : totalOf S.holdings owner = totalOf S'.holdings owner

variable {S S' : HolderSnapshot} {owner : Pubkey} {bondingCurvePda : Pubkey → Pubkey}
  {mint : Pubkey} {supply : Nat}

theorem kept_eq_held (decodable : ∀ e ∈ S.entries, ∃ o, ownerOf S.tokenAt e.1 = some o) :
    (S.entries.filter (Counts bondingCurvePda S.tokenAt S.ownerAt mint)).map Prod.snd =
      (S.held (bondingCurvePda mint)).map Prod.snd := by
  unfold held holdings
  generalize S.entries = entries at decodable ⊢
  induction entries with
  | nil => rfl
  | cons e entries ih =>
    obtain ⟨⟨o, own⟩, others⟩ := List.forall_mem_cons.mp decodable
    have counts : Counts bondingCurvePda S.tokenAt S.ownerAt mint e ↔
        S.isHolder (bondingCurvePda mint) o = true := by
      unfold Counts isHolder
      rw [own, decide_eq_true_eq]
      simp only [Option.some.injEq, forall_eq']
    rw [List.filter_cons, List.filterMap_cons, own, Option.map_some, List.filter_cons]
    by_cases holder : S.isHolder (bondingCurvePda mint) o = true
    · rw [if_pos (decide_eq_true (counts.mpr holder)), if_pos holder, List.map_cons, List.map_cons,
        ih others]
    · rw [if_neg (by rw [decide_eq_true_eq, counts]; exact holder), if_neg holder, ih others]

theorem Complete.concentration (complete : S.Complete supply) (n : Nat) :
    topNHolderConcentration bondingCurvePda S.rpc mint n =
      .ok (topSum n ((S.held (bondingCurvePda mint)).map Prod.snd) / supply) := by
  have tokens := positional_of_map fun keys => (rfl : S.rpc.tokenAccounts keys = _)
  have owners := positional_of_map fun keys => (rfl : S.rpc.ownerAccounts keys = _)
  have contract :=
    @concentration_meets bondingCurvePda S.tokenAt S.ownerAt mint S.rpc tokens owners n
  have noError : ∀ e : HolderError, ¬ e.Cause S.rpc mint := by
    intro e cause
    cases e with
    | largest message => cases cause
    | noAccounts key =>
      obtain ⟨_, largest, listed, none⟩ := cause
      cases listed
      apply complete.listed
      rw [entries, none]
      rfl
    | noDecodable key =>
      obtain ⟨_, largest, listed, none⟩ := cause
      cases listed
      exact complete.listed none
    | tokenAccounts message => obtain ⟨keys, refused⟩ := cause; cases refused
    | owners message => obtain ⟨keys, refused⟩ := cause; cases refused
    | supply message => cases cause
    | supplyAmount text =>
      obtain ⟨answered, bad⟩ := cause
      cases answered
      rw [complete.supplied] at bad
      cases bad
    | zeroSupply key =>
      obtain ⟨_, text, answered, zero⟩ := cause
      cases answered
      rw [complete.supplied] at zero
      cases zero
      exact absurd complete.positive (lt_irrefl 0)
  obtain ⟨q, returned, largest, text, supply', listed, supplied, parsed, _, same⟩ :=
    contract.always noError
  cases listed
  cases supplied
  rw [complete.supplied] at parsed
  cases parsed
  have kept := @kept_eq_held S bondingCurvePda mint complete.decodable
  rw [returned, same, ← kept]
  rfl

theorem Redistributed.totals_held (moved : Redistributed owner S S') (bondingPda k : Pubkey) :
    totalOf (S.held bondingPda) k = totalOf (S'.held bondingPda) k := by
  have holders : S.isHolder bondingPda = S'.isHolder bondingPda := by
    funext o
    rw [isHolder, isHolder, moved.ownerAt]
  rw [held, held, totalOf_filter, totalOf_filter, holders]
  congr 1
  by_cases same : k = owner
  · rw [same]
    exact moved.total
  · have own : ∀ xs : List (Pubkey × Nat),
        totalOf (xs.filter fun h => h.1 ≠ owner) k = totalOf xs k := by
      intro xs
      rw [totalOf_filter (fun o => o ≠ owner), if_pos (decide_eq_true same)]
    rw [← own S.holdings, ← own S'.holdings]
    exact totalOf_perm moved.others k

end HolderSnapshot

open HolderSnapshot

/-- Two snapshots that differ in how one owner's tokens lie in that owner's accounts give the same
fraction, that of the `n` largest owners, exactly when in neither a split total matters. -/
theorem concentration_unsplit_iff {S S' : HolderSnapshot} {owner : Pubkey} {supply : Nat}
    (complete : S.Complete supply) (complete' : S'.Complete supply)
    (moved : Redistributed owner S S') (bondingCurvePda : Pubkey → Pubkey) (mint : Pubkey)
    (n : Nat) :
    (∃ q sum, topNHolderConcentration bondingCurvePda S.rpc mint n = .ok q ∧
        topNHolderConcentration bondingCurvePda S'.rpc mint n = .ok q ∧
        IsTopSum n (totals (S.held (bondingCurvePda mint))) sum ∧ q * supply = sum) ↔
      Unsplit n (S.held (bondingCurvePda mint)) ∧ Unsplit n (S'.held (bondingCurvePda mint)) := by
  have nonzero : (supply : ℚ) ≠ 0 := Nat.cast_ne_zero.mpr complete.positive.ne'
  have sameTotals : topSum n (totals (S.held (bondingCurvePda mint))) =
      topSum n (totals (S'.held (bondingCurvePda mint))) :=
    topSum_totals_congr (moved.totals_held (bondingCurvePda mint))
  rw [complete.concentration, complete'.concentration, ← topSum_amounts_eq_iff,
    ← topSum_amounts_eq_iff]
  constructor
  · rintro ⟨q, sum, first, second, top, share⟩
    rw [isTopSum_iff.mp top] at share
    cases first
    rw [div_mul_cancel₀ _ nonzero] at share
    have here := Nat.cast_injective share
    have there : (topSum n ((S'.held (bondingCurvePda mint)).map Prod.snd) : ℚ) =
        topSum n ((S.held (bondingCurvePda mint)).map Prod.snd) :=
      (div_left_inj' nonzero).mp (Except.ok.inj second)
    exact ⟨here, (Nat.cast_injective there).trans (here.trans sameTotals)⟩
  · rintro ⟨here, there⟩
    refine ⟨_, _, rfl, ?_, topSum_isTopSum n _, ?_⟩
    · rw [there, here, sameTotals]
    · rw [div_mul_cancel₀ _ nonzero, here]

/-- A mint with these accounts, all of one wallet, and a supply of 100. -/
def walletSnapshot (accounts : Vec LargestAccount) : HolderSnapshot where
  largest := accounts
  tokenAt := fun _ => some ⟨⟨0⟩, List.replicate 32 0 ++ List.replicate 32 2⟩
  ownerAt := fun _ => none
  supply := "100"

/-- Twenty tokens in one account. -/
def wholeHolding : HolderSnapshot := walletSnapshot ⟨[⟨splTokenId, "20"⟩], by decide⟩

/-- The same twenty, twelve in one account and eight in another. -/
def pairedHolding : HolderSnapshot :=
  walletSnapshot ⟨[⟨splTokenId, "12"⟩, ⟨String.ofList (List.replicate 31 '1' ++ ['2']), "8"⟩],
    by decide⟩

/-- One token in each of twenty accounts. -/
def splitHolding : HolderSnapshot :=
  walletSnapshot ⟨"23456789ABCDEFGHJKLM".toList.map fun c =>
    ⟨String.ofList (List.replicate 31 '1' ++ [c]), "1"⟩, by decide⟩

theorem wholeHolding_holdings :
    wholeHolding.holdings = [(.ofBytes (List.replicate 32 2), 20)] := by decide +kernel

theorem pairedHolding_holdings :
    pairedHolding.holdings =
      [(.ofBytes (List.replicate 32 2), 12), (.ofBytes (List.replicate 32 2), 8)] := by
  decide +kernel

theorem splitHolding_holdings :
    splitHolding.holdings = List.replicate 20 (.ofBytes (List.replicate 32 2), 1) := by
  decide +kernel

theorem walletSnapshot_complete {accounts : Vec LargestAccount}
    (owned : (walletSnapshot accounts).holdings ≠ []) : (walletSnapshot accounts).Complete 100 where
  listed := by
    intro none
    rw [holdings, none] at owned
    exact owned rfl
  decodable := fun _ _ => ⟨_, rfl⟩
  supplied := (by decide : parseUnsigned (2 ^ 128) "100" = some 100)
  positive := by decide

theorem wholeHolding_complete : wholeHolding.Complete 100 := by
  apply walletSnapshot_complete
  change wholeHolding.holdings ≠ []
  rw [wholeHolding_holdings]
  decide

theorem pairedHolding_complete : pairedHolding.Complete 100 := by
  apply walletSnapshot_complete
  change pairedHolding.holdings ≠ []
  rw [pairedHolding_holdings]
  decide

theorem splitHolding_complete : splitHolding.Complete 100 := by
  apply walletSnapshot_complete
  change splitHolding.holdings ≠ []
  rw [splitHolding_holdings]
  decide

theorem concentration_unsplit_pair :
    ∃ q sum, topNHolderConcentration (fun _ => ⟨0⟩) wholeHolding.rpc ⟨0⟩ 10 = .ok q ∧
      topNHolderConcentration (fun _ => ⟨0⟩) pairedHolding.rpc ⟨0⟩ 10 = .ok q ∧
      IsTopSum 10 (totals (wholeHolding.held ⟨0⟩)) sum ∧ q * (100 : Nat) = sum := by
  have moved : Redistributed (.ofBytes (List.replicate 32 2)) wholeHolding pairedHolding := by
    refine ⟨rfl, rfl, ?_, ?_⟩
    · rw [wholeHolding_holdings, pairedHolding_holdings]
      decide
    · rw [wholeHolding_holdings, pairedHolding_holdings]
      decide
  have whole : Unsplit 10 (wholeHolding.held ⟨0⟩) := by
    left
    rw [held, wholeHolding_holdings]
    decide
  have paired : Unsplit 10 (pairedHolding.held ⟨0⟩) := by
    left
    rw [held, pairedHolding_holdings]
    decide
  exact (concentration_unsplit_iff wholeHolding_complete pairedHolding_complete moved
    (fun _ => ⟨0⟩) ⟨0⟩ 10).mpr ⟨whole, paired⟩

/-- Ten of the twenty accounts count for half of the holding. -/
theorem concentration_split_differs :
    wholeHolding.Complete 100 ∧ splitHolding.Complete 100 ∧
      (∃ owner, Redistributed owner wholeHolding splitHolding) ∧
      ¬ ∃ q, topNHolderConcentration (fun _ => ⟨0⟩) wholeHolding.rpc ⟨0⟩ 10 = .ok q ∧
        topNHolderConcentration (fun _ => ⟨0⟩) splitHolding.rpc ⟨0⟩ 10 = .ok q := by
  refine ⟨wholeHolding_complete, splitHolding_complete, ⟨.ofBytes (List.replicate 32 2), ?_⟩, ?_⟩
  · refine ⟨rfl, rfl, ?_, ?_⟩
    · rw [wholeHolding_holdings, splitHolding_holdings]
      decide
    · rw [wholeHolding_holdings, splitHolding_holdings]
      decide
  · rintro ⟨q, first, second⟩
    rw [wholeHolding_complete.concentration, held, wholeHolding_holdings] at first
    rw [splitHolding_complete.concentration, held, splitHolding_holdings] at second
    have same := (Except.ok.inj first).trans (Except.ok.inj second).symm
    exact absurd same (by decide +kernel)

end HadesPsTrader.Chain
