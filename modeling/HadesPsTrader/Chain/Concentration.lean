/- Module: HadesPsTrader/Chain/Concentration
   source: src/onchain.rs
   digest: The concentration check sums the largest kept accounts, each with its own owner. -/

import Mathlib.Data.List.Basic
import HadesPsTrader.Chain.Holders

set_option autoImplicit false
set_option relaxedAutoImplicit false

namespace HadesPsTrader.Chain

open Interaction

section Contracts

variable {bondingCurvePda : Pubkey → Pubkey} {tokenAt ownerAt : Pubkey → Option StoredAccount}
  {mint program : Pubkey}

theorem mapM_tokenOwner {ε : Type} (keys : List Pubkey) :
    (keys.map tokenAt).mapM tokenOwner =
      (.ok (keys.map (ownerOf tokenAt)) : Except (Fault ε) _) := by
  induction keys with
  | nil => rfl
  | cons key keys ih =>
    rw [List.map_cons, List.mapM_cons, tokenOwner_eq, ok_bind, ih, ok_bind]
    rfl

theorem mem_pumpswapOwners (parses : Pubkey.fromStr pumpSwapProgramId = some program)
    (owners : List Pubkey) (o : Pubkey) :
    o ∈ pumpswapOwners program owners (owners.map ownerAt) ↔
      o ∈ owners ∧ isPool ownerAt o = true := by
  unfold pumpswapOwners
  rw [← List.map_prod_left_eq_zip, List.mem_filterMap]
  constructor
  · rintro ⟨pair, mem, same⟩
    obtain ⟨k, listed, rfl⟩ := List.mem_map.mp mem
    simp only at same
    split_ifs at same with pool
    cases same
    exact ⟨listed, (isPool_eq parses ownerAt _).trans pool⟩
  · rintro ⟨listed, pool⟩
    refine ⟨(o, ownerAt o), List.mem_map_of_mem listed, ?_⟩
    rw [isPool_eq parses] at pool
    exact if_pos pool

theorem keeps_iff {entries : List (Pubkey × Nat)} {unique excluded : List Pubkey}
    (pools : ∀ o, o ∈ excluded ↔ o ∈ unique ∧ isPool ownerAt o = true)
    (asked : unique = (((entries.map fun e => ownerOf tokenAt e.1).filterMap id).filter
      (· ≠ bondingCurvePda mint)).eraseDups) {entry : Pubkey × Nat} (mem : entry ∈ entries) :
    keeps (bondingCurvePda mint) excluded (ownerOf tokenAt entry.1) = true ↔
      Counts bondingCurvePda tokenAt ownerAt mint entry := by
  unfold Counts
  cases own : ownerOf tokenAt entry.1 with
  | none => simp [keeps]
  | some o =>
    have listed : o ≠ bondingCurvePda mint → o ∈ unique := by
      intro other
      rw [asked, List.mem_eraseDups, List.mem_filter, List.mem_filterMap]
      exact ⟨⟨some o, List.mem_map.mpr ⟨entry, mem, own⟩, rfl⟩, decide_eq_true other⟩
    rw [keeps, decide_eq_true_eq, pools]
    constructor
    · rintro ⟨other, notExcluded⟩ o' same
      cases same
      refine ⟨other, ?_⟩
      rw [← Bool.not_eq_true]
      intro pool
      exact notExcluded ⟨listed other, pool⟩
    · intro counts
      obtain ⟨other, notPool⟩ := counts o rfl
      refine ⟨other, ?_⟩
      rintro ⟨_, pool⟩
      rw [notPool] at pool
      cases pool

theorem topSum_kept_lt (n : Nat) (largest : Vec LargestAccount) (p : Pubkey × Nat → Bool) :
    topSum n (((largest.val.filterMap entryOf).filter p).map Prod.snd) < 2 ^ 128 := by
  generalize counted : ((largest.val.filterMap entryOf).filter p).map Prod.snd = kept
  have short : kept.length < 2 ^ 63 := by
    have fewer := List.length_filter_le p (largest.val.filterMap entryOf)
    have parsed := List.length_filterMap_le entryOf largest.val
    have bound := largest.property
    rw [← counted, List.length_map]
    omega
  have each : ∀ a ∈ kept, a ≤ 2 ^ 64 := by
    intro a mem
    rw [← counted] at mem
    obtain ⟨entry, kept_mem, rfl⟩ := List.mem_map.mp mem
    obtain ⟨text, _, parsed⟩ := List.mem_filterMap.mp (List.mem_of_mem_filter kept_mem)
    obtain ⟨pk, _, amount⟩ := Option.bind_eq_some_iff.mp parsed
    obtain ⟨raw, fits, rfl⟩ := Option.map_eq_some_iff.mp amount
    exact (parseUnsigned_lt fits).le
  have total : kept.sum ≤ kept.length * 2 ^ 64 := by
    simpa using List.sum_le_card_nsmul kept (2 ^ 64) each
  have top := topSum_le n 0 kept
  rw [excess_zero, Nat.mul_zero, Nat.zero_add] at top
  omega

variable {rpc : HolderRpc} (tokens : Positional rpc.tokenAccounts tokenAt)
  (owners : Positional rpc.ownerAccounts ownerAt)

include owners in
theorem resolveExcluded_meets (parses : Pubkey.fromStr pumpSwapProgramId = some program)
    (unique : List Pubkey) :
    Meets (resolveExcluded rpc program unique)
      (fun excluded => ∀ o, o ∈ excluded ↔ o ∈ unique ∧ isPool ownerAt o = true)
      (HolderError.Cause rpc mint) := by
  unfold resolveExcluded
  split
  · next none =>
    rw [none]
    exact meets_ok fun o => by simp
  · refine (meets_mapErr (fun _ => id) fun _ refused => ⟨_, refused⟩).bind
      fun accounts answered => ?_
    rw [owners _ _ answered]
    exact meets_ok (mem_pumpswapOwners parses unique)

include tokens owners

theorem keptAmounts_meets (entries : List (Pubkey × Nat)) :
    Meets (keptAmounts bondingCurvePda rpc mint entries)
      (· = (entries.filter (Counts bondingCurvePda tokenAt ownerAt mint)).map Prod.snd)
      (HolderError.Cause rpc mint) := by
  obtain ⟨program, parses⟩ := pumpSwapProgram_parses
  unfold keptAmounts
  refine (meets_mapErr (fun _ => id) fun _ refused => ⟨_, refused⟩).bind fun accounts answered => ?_
  rw [tokens _ _ answered, mapM_tokenOwner, ok_bind, parses, unwrap, ok_bind, List.map_map]
  generalize asked : (((entries.map (ownerOf tokenAt ∘ Prod.fst)).filterMap id).filter
    (· ≠ bondingCurvePda mint)).eraseDups = unique
  refine (resolveExcluded_meets owners parses unique).bind fun excluded pools => ?_
  refine meets_ok ?_
  rw [← List.map_prod_left_eq_zip, List.filter_map, List.map_map]
  have same : entries.filter ((fun e => keeps (bondingCurvePda mint) excluded e.2) ∘
        fun e => (e, (ownerOf tokenAt ∘ Prod.fst) e)) =
      entries.filter (Counts bondingCurvePda tokenAt ownerAt mint) := by
    apply List.filter_congr
    intro entry mem
    rw [Bool.eq_iff_iff, decide_eq_true_eq]
    exact keeps_iff pools asked.symm mem
  rw [same]
  rfl

theorem concentration_meets (n : Nat) :
    Meets (topNHolderConcentration bondingCurvePda rpc mint n) (fun q =>
      ∃ largest text supply, rpc.largest mint = .ok largest ∧ rpc.supply mint = .ok text ∧
        parseUnsigned (2 ^ 128) text = some supply ∧ 0 < supply ∧
        q = topSum n (((largest.val.filterMap entryOf).filter
          (Counts bondingCurvePda tokenAt ownerAt mint)).map Prod.snd) / supply)
      (HolderError.Cause rpc mint) := by
  unfold topNHolderConcentration
  refine Meets.bind (meets_mapErr (fun _ => id) fun _ refused => refused) fun largest listed => ?_
  split
  · next none => exact meets_failed ⟨rfl, largest, listed, none⟩
  dsimp only
  split
  · next none => exact meets_failed ⟨rfl, largest, listed, none⟩
  refine (keptAmounts_meets tokens owners _).bind fun kept same => ?_
  subst same
  generalize counted : ((largest.val.filterMap entryOf).filter
    (Counts bondingCurvePda tokenAt ownerAt mint)).map Prod.snd = kept
  have fits : topSum n kept < 2 ^ 128 := by
    rw [← counted]
    exact topSum_kept_lt n largest _
  have sum : ((kept.insertionSort (· ≥ ·)).take n).foldlM (addWithin (2 ^ 128)) 0 =
      (.ok (topSum n kept) : Except (Fault HolderError) Nat) := by
    have := foldlM_addWithin (ε := HolderError) ((kept.insertionSort (· ≥ ·)).take n) 0
      (by rw [Nat.zero_add]; exact fits)
    rw [this, Nat.zero_add, topSum]
  rw [sum, ok_bind]
  refine Meets.bind (meets_mapErr (fun _ => id) fun _ refused => refused) fun text supplied => ?_
  refine Meets.bind (meets_okOr (fun _ => id) fun bad => ⟨supplied, bad⟩) fun supply parsed => ?_
  split
  · next zero => exact meets_failed ⟨rfl, text, supplied, zero ▸ parsed⟩
  · next positive =>
    exact meets_ok ⟨largest, text, supply, listed, supplied, parsed, Nat.pos_of_ne_zero positive,
      by rw [counted]⟩

/-- The result times the supply is the sum of the `n` largest amounts among the entries whose owner
is neither the bonding curve nor a pool; an error names its cause, and nothing overflows. -/
theorem concentration_top (n : Nat) :
    topNHolderConcentration bondingCurvePda rpc mint n ≠ .error .panicked ∧
    (∀ q, topNHolderConcentration bondingCurvePda rpc mint n = .ok q →
      ∃ largest text supply sum, rpc.largest mint = .ok largest ∧ rpc.supply mint = .ok text ∧
        parseUnsigned (2 ^ 128) text = some supply ∧ 0 < supply ∧
        IsTopSum n (((largest.val.filterMap entryOf).filter
          (Counts bondingCurvePda tokenAt ownerAt mint)).map Prod.snd) sum ∧
        q * supply = sum) ∧
    ∀ e, topNHolderConcentration bondingCurvePda rpc mint n = .error (.failed e) →
      e.Cause rpc mint := by
  have contract := @concentration_meets bondingCurvePda tokenAt ownerAt mint rpc tokens owners n
  refine ⟨contract.calm, ?_, contract.fails⟩
  intro q returned
  obtain ⟨largest, text, supply, listed, supplied, parsed, positive, same⟩ :=
    contract.returns q returned
  refine ⟨largest, text, supply, _, listed, supplied, parsed, positive, topSum_isTopSum n _, ?_⟩
  have nonzero : (supply : ℚ) ≠ 0 := Nat.cast_ne_zero.mpr positive.ne'
  rw [same, div_mul_cancel₀ _ nonzero]

end Contracts

/-- The account of one key is short, one belongs to the pool with the key of 32 ones, and the others
to a wallet. -/
def mixedTokens (key : Pubkey) : Option StoredAccount :=
  if some key = Pubkey.fromStr splTokenId then some ⟨⟨0⟩, []⟩
  else if some key = Pubkey.fromStr token2022ProgramId then
    some ⟨⟨0⟩, List.replicate 32 0 ++ List.replicate 32 1⟩
  else some ⟨⟨0⟩, List.replicate 32 0 ++ List.replicate 32 2⟩

def mixedOwners (key : Pubkey) : Option StoredAccount :=
  if key = .ofBytes (List.replicate 32 1) then
    (Pubkey.fromStr pumpSwapProgramId).map fun program => ⟨program, []⟩
  else none

/-- Four entries, of which the first does not parse. -/
def mixedAccounts : Vec LargestAccount :=
  ⟨[⟨"holder", "5"⟩, ⟨splTokenId, "7"⟩, ⟨token2022ProgramId, "9"⟩, ⟨wsolMint, "+11"⟩], by decide⟩

def mixedRpc : HolderRpc where
  largest := fun _ => .ok mixedAccounts
  tokenAccounts := fun keys => .ok (keys.map mixedTokens)
  ownerAccounts := fun keys => .ok (keys.map mixedOwners)
  supply := fun _ => .ok "100"

theorem concentration_top_mixed :
    ∃ q sum, topNHolderConcentration (fun _ => ⟨0⟩) mixedRpc ⟨0⟩ 1 = .ok q ∧
      IsTopSum 1 (((mixedAccounts.val.filterMap entryOf).filter
        (Counts (fun _ => ⟨0⟩) mixedTokens mixedOwners ⟨0⟩)).map Prod.snd) sum ∧
      q * 100 = sum := by
  have tokens := positional_of_map fun keys => (rfl : mixedRpc.tokenAccounts keys = _)
  have owners := positional_of_map fun keys => (rfl : mixedRpc.ownerAccounts keys = _)
  obtain ⟨q, returned⟩ := exists_ok
    (x := topNHolderConcentration (fun _ => ⟨0⟩) mixedRpc ⟨0⟩ 1) (by decide +kernel)
  have contract :=
    @concentration_top (fun _ => ⟨0⟩) mixedTokens mixedOwners ⟨0⟩ mixedRpc tokens owners 1
  obtain ⟨largest, text, supply, sum, listed, supplied, parsed, _, top, same⟩ :=
    contract.2.1 q returned
  cases listed
  cases supplied
  have hundred : parseUnsigned (2 ^ 128) "100" = some 100 := by decide
  rw [hundred] at parsed
  cases parsed
  exact ⟨q, sum, returned, top, same⟩

end HadesPsTrader.Chain
