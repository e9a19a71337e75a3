/- Module: HadesPsTrader/Chain/Filters
   source: src/session.rs, src/config.rs
   digest: The one-shot trading filters decide by what is on the chain, and fail closed. -/

import HadesPsTrader.Chain.Concentration
import HadesPsTrader.Chain.HolderCount
import HadesPsTrader.Chain.Signatures
import HadesPsTrader.Interaction.Screening

set_option autoImplicit false
set_option relaxedAutoImplicit false

namespace HadesPsTrader.Chain

open Interaction

/-- The `[tradingfilters]` thresholds; zero switches a check off. Whether the filters run at all is
the session's question. -/
structure TradingFilters where
  minHolders : Nat
  minTxs : Nat
  topTenHolderPercentage : ℚ

inductive FilterCheck
  | holders | txs | topTen
  deriving DecidableEq

structure FilterRpc where
  count : CountRpc
  signatures : SignatureRpc
  largest : HolderRpc

/-- `run_filters`: holders, then transactions, then concentration. -/
def runFilters (bondingCurvePda : Pubkey → Pubkey) (rpc : FilterRpc) (f : TradingFilters)
    (mint : Pubkey) : Except (Fault Empty) (Ruling FilterCheck) :=
  check .holders (0 < f.minHolders) (holderCount rpc.count mint) (fun n => ¬ n < f.minHolders) <|
  check .txs (0 < f.minTxs) (bondingCurveTxCount rpc.signatures)
    (fun activity => ¬ activity.count < f.minTxs) <|
  check .topTen (0 < f.topTenHolderPercentage)
    (topNHolderConcentration bondingCurvePda rpc.largest mint 10)
    (fun frac => ¬ f.topTenHolderPercentage < frac) <|
  .ok ⟨[], true⟩

def FilterCheck.Enabled (f : TradingFilters) : FilterCheck → Prop
  | .holders => 0 < f.minHolders
  | .txs => 0 < f.minTxs
  | .topTen => 0 < f.topTenHolderPercentage

instance (f : TradingFilters) : DecidablePred (FilterCheck.Enabled f)
  | .holders => inferInstanceAs (Decidable (0 < f.minHolders))
  | .txs => inferInstanceAs (Decidable (0 < f.minTxs))
  | .topTen => inferInstanceAs (Decidable (0 < f.topTenHolderPercentage))

def TradingFilters.checks (f : TradingFilters) : List FilterCheck :=
  [.holders, .txs, .topTen].filter fun c => decide (c.Enabled f)

section Met

variable (bondingCurvePda : Pubkey → Pubkey) (rpc : FilterRpc) (f : TradingFilters) (mint : Pubkey)
  (chain : List StoredAccount) (hist : Nat → List String)
  (tokenAt ownerAt : Pubkey → Option StoredAccount)

/-- The node answered the check, and what is on the chain is within its bound. -/
def FilterCheck.Met : FilterCheck → Prop
  | .holders => ∃ program accounts, Resolves rpc.count.mintAccount program ∧
      rpc.count.programAccounts program ⟨0, mint.toBytes⟩ = .ok accounts ∧
      f.minHolders ≤ chain.countP (Holding program mint)
  | .txs => (∃ activity, bondingCurveTxCount rpc.signatures = .ok activity) ∧
      f.minTxs ≤ min (hist 0).length 5000
  | .topTen => ∃ q largest text supply sum,
      topNHolderConcentration bondingCurvePda rpc.largest mint 10 = .ok q ∧
      rpc.largest.largest mint = .ok largest ∧ rpc.largest.supply mint = .ok text ∧
      parseUnsigned (2 ^ 128) text = some supply ∧
      IsTopSum 10 (((largest.val.filterMap entryOf).filter
        (Counts bondingCurvePda tokenAt ownerAt mint)).map Prod.snd) sum ∧
      (sum : ℚ) ≤ f.topTenHolderPercentage * supply

end Met

section Decisions

variable {bondingCurvePda : Pubkey → Pubkey} {rpc : FilterRpc} {f : TradingFilters} {mint : Pubkey}
  {chain : List StoredAccount} {hist : Nat → List String}
  {tokenAt ownerAt : Pubkey → Option StoredAccount}

theorem holders_decides (scans : Scans rpc.count chain) :
    FilterCheck.holders.Met bondingCurvePda rpc f mint chain hist tokenAt ownerAt ↔
      ∃ n, holderCount rpc.count mint = .ok n ∧ decide (¬ n < f.minHolders) = true := by
  have contract := holderCount_meets scans mint
  constructor
  · rintro ⟨program, accounts, resolved, scanned, enough⟩
    have answered : ∀ e, ¬ CountError.Cause rpc.count mint e := by
      intro e cause
      cases e with
      | program e => cases (resolveTokenProgram_eq_ok_iff.mpr resolved).symm.trans cause
      | accounts message =>
        obtain ⟨program', resolved', refused⟩ := cause
        cases resolved.unique resolved'
        cases scanned.symm.trans refused
    obtain ⟨n, returned, program', resolved', _, same⟩ := contract.always answered
    cases resolved.unique resolved'
    refine ⟨n, returned, decide_eq_true ?_⟩
    omega
  · rintro ⟨n, returned, enough⟩
    obtain ⟨program, resolved, ⟨accounts, scanned⟩, same⟩ := contract.returns n returned
    refine ⟨program, accounts, resolved, scanned, ?_⟩
    have := of_decide_eq_true enough
    omega

theorem txs_meets (serves : Serves rpc.signatures hist) :
    Meets (bondingCurveTxCount rpc.signatures) (fun a => a.count = min (hist 0).length 5000)
      (fun e => ∃ k before message, rpc.signatures k before sigPageSize = .error message ∧
        e = .rpc message) := by
  refine (txCountFrom_meets serves maxSigPages 0 0 none (by decide) rfl).mono ?_
  rintro a ⟨count, _, _⟩
  rw [count]
  exact (Nat.zero_add _)

theorem txs_decides (serves : Serves rpc.signatures hist) :
    FilterCheck.txs.Met bondingCurvePda rpc f mint chain hist tokenAt ownerAt ↔
      ∃ a, bondingCurveTxCount rpc.signatures = .ok a ∧ decide (¬ a.count < f.minTxs) = true := by
  have contract := txs_meets serves
  constructor
  · rintro ⟨⟨a, returned⟩, enough⟩
    refine ⟨a, returned, decide_eq_true ?_⟩
    have count := contract.returns a returned
    omega
  · rintro ⟨a, returned, enough⟩
    have count := contract.returns a returned
    have reached := of_decide_eq_true enough
    exact ⟨⟨a, returned⟩, by omega⟩

theorem topTen_decides (tokens : Positional rpc.largest.tokenAccounts tokenAt)
    (owners : Positional rpc.largest.ownerAccounts ownerAt) :
    FilterCheck.topTen.Met bondingCurvePda rpc f mint chain hist tokenAt ownerAt ↔
      ∃ q, topNHolderConcentration bondingCurvePda rpc.largest mint 10 = .ok q ∧
        decide (¬ f.topTenHolderPercentage < q) = true := by
  have contract := @concentration_meets bondingCurvePda tokenAt ownerAt mint rpc.largest tokens
    owners 10
  constructor
  · rintro ⟨q, largest, text, supply, sum, returned, listed, supplied, parsed, top, low⟩
    obtain ⟨largest', text', supply', listed', supplied', parsed', positive, same⟩ :=
      contract.returns q returned
    cases listed.symm.trans listed'
    cases supplied.symm.trans supplied'
    cases parsed.symm.trans parsed'
    have fraction : (0 : ℚ) < supply := Nat.cast_pos.mpr positive
    refine ⟨q, returned, decide_eq_true (not_lt.mpr ?_)⟩
    rw [same, ← isTopSum_iff.mp top]
    exact (div_le_iff₀ fraction).mpr low
  · rintro ⟨q, returned, low⟩
    obtain ⟨largest, text, supply, listed, supplied, parsed, positive, same⟩ :=
      contract.returns q returned
    have fraction : (0 : ℚ) < supply := Nat.cast_pos.mpr positive
    refine ⟨q, largest, text, supply, _, returned, listed, supplied, parsed,
      topSum_isTopSum 10 _, ?_⟩
    have low := not_lt.mp (of_decide_eq_true low)
    rw [same] at low
    exact (div_le_iff₀ fraction).mp low

/-- The filters never panic, whatever the node answers. A mint passes exactly when each check that is
switched on was answered and is met by what is on the chain; otherwise the first check that is not
met is the last one asked. Beyond the 5000 signatures that are counted nothing passes. -/
theorem runFilters_judges (scans : Scans rpc.count chain) (serves : Serves rpc.signatures hist)
    (tokens : Positional rpc.largest.tokenAccounts tokenAt)
    (owners : Positional rpc.largest.ownerAccounts ownerAt) :
    ∃ v, runFilters bondingCurvePda rpc f mint = .ok v ∧
      Judged (FilterCheck.Met bondingCurvePda rpc f mint chain hist tokenAt ownerAt) f.checks v ∧
      (v.passed = true ↔ ∀ c : FilterCheck, c.Enabled f →
        c.Met bondingCurvePda rpc f mint chain hist tokenAt ownerAt) ∧
      (5000 < f.minTxs → v.passed = false) := by
  have last : ∃ v, (.ok ⟨[], true⟩ : Except (Fault Empty) (Ruling FilterCheck)) = .ok v ∧
      Judged (FilterCheck.Met bondingCurvePda rpc f mint chain hist tokenAt ownerAt)
        (([] : List FilterCheck).filter fun c => decide (c.Enabled f)) v :=
    ⟨_, rfl, .passes nofun⟩
  have topTen := check_judged (FilterCheck.Enabled f) .topTen
    (concentration_meets tokens owners 10).calm (topTen_decides tokens owners) last
  have txs := check_judged (FilterCheck.Enabled f) .txs (txs_meets serves).calm
    (txs_decides serves) topTen
  obtain ⟨v, returned, judged⟩ := check_judged (FilterCheck.Enabled f) .holders
    (holderCount_meets scans mint).calm (holders_decides scans) txs
  change Judged _ f.checks v at judged
  have mem : ∀ c : FilterCheck, c ∈ f.checks ↔ c.Enabled f := by
    intro c
    rw [TradingFilters.checks, List.mem_filter, decide_eq_true_eq, and_iff_right_iff_imp]
    intro _
    cases c <;> simp
  refine ⟨v, returned, judged, ?_, ?_⟩
  · rw [judged.passed_iff]
    simp only [mem]
  · intro beyond
    refine judged.rejected ((mem .txs).mpr (by change 0 < f.minTxs; omega)) ?_
    rintro ⟨_, enough⟩
    omega

end Decisions

/-- Two token accounts of the mint with key 0, one of them empty. -/
def smallChain : List StoredAccount :=
  [5, 0].map fun amount =>
    ⟨(Pubkey.fromStr splTokenId).getD ⟨0⟩, (tokenAccount amount).data⟩

/-- The mint becomes visible at the second lookup. -/
def smallRpc : FilterRpc where
  count.mintAccount k := .ok (if k = 0 then none else Pubkey.fromStr splTokenId)
  count.programAccounts program filter :=
    .ok (smallChain.filter fun acc => acc.owner = program ∧ filter.Selects acc.data)
  signatures := busyRpc 2
  largest := mixedRpc

theorem runFilters_judges_small :
    ∃ v, runFilters (fun _ => ⟨0⟩) smallRpc ⟨1, 2, 1 / 5⟩ ⟨0⟩ = .ok v ∧ v.passed = true ∧
      FilterCheck.holders.Met (fun _ => ⟨0⟩) smallRpc ⟨1, 2, 1 / 5⟩ ⟨0⟩ smallChain (busyHistory 2)
        mixedTokens mixedOwners := by
  have scans : Scans smallRpc.count smallChain := by
    intro program filter accounts answered
    cases answered
    exact List.Perm.refl _
  have tokens := positional_of_map fun keys => (rfl : smallRpc.largest.tokenAccounts keys = _)
  have owners := positional_of_map fun keys => (rfl : smallRpc.largest.ownerAccounts keys = _)
  obtain ⟨v, returned, _, decides, _⟩ := @runFilters_judges (fun _ => ⟨0⟩) smallRpc
    ⟨1, 2, 1 / 5⟩ ⟨0⟩ _ _ _ _ scans (busyHistory_serves (by decide)) tokens owners
  have passed : ((runFilters (fun _ => ⟨0⟩) smallRpc ⟨1, 2, 1 / 5⟩ ⟨0⟩).toOption.map
      (·.passed)) = some true := by decide +kernel
  rw [returned] at passed
  have passed : v.passed = true := Option.some.inj passed
  exact ⟨v, returned, passed, decides.mp passed .holders (by decide)⟩

end HadesPsTrader.Chain
