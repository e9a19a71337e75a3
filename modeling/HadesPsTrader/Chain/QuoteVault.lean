/- Module: HadesPsTrader/Chain/QuoteVault
   source: src/pumpswap.rs
   digest: What the choice of the quote vault, and with it every read of a pool, depends on. -/

import HadesPsTrader.Chain.PoolDiscovery

set_option autoImplicit false
set_option relaxedAutoImplicit false

namespace HadesPsTrader.Chain

open Interaction

def PoolRpc.listing (rpc : PoolRpc) (response : List String) : PoolRpc :=
  { rpc with accountsByOwner := fun _ _ => .ok response }

/-- Both discoveries return, with the same quote vault, and every read of the vaults is the same. -/
def SameReads (a b : Except (Fault PoolError) PoolInfo) : Prop :=
  ∃ x y, a = .ok x ∧ b = .ok y ∧ x.quoteVault = y.quoteVault ∧
    ∀ ask timeout, fetchPoolState ask x timeout = fetchPoolState ask y timeout

def firstListed (response : List String) : Option Pubkey := response.head?.bind Pubkey.fromStr

section Selection

variable {rpc : PoolRpc} {mint program poolId baseVault : Pubkey}
  (parses : Pubkey.fromStr pumpSwapProgramId = some program)
  (found : findBaseVault rpc program mint = .ok (poolId, baseVault))

include parses found

theorem findPool_listing (response : List String) :
    findPool (rpc.listing response) mint =
      okOr (.noSolVault poolId) ((firstListed response).map fun v => ⟨poolId, baseVault, v⟩) := by
  obtain ⟨wsol, wsol_parses⟩ := wsol_parses
  have same : findBaseVault (rpc.listing response) program mint = .ok (poolId, baseVault) := found
  unfold findPool
  rw [parses, wsol_parses, unwrap, unwrap, ok_bind, ok_bind, same, ok_bind]
  change (okOr _ (firstListed response) >>= _) = _
  cases firstListed response with
  | none => rfl
  | some vault => rfl

theorem sameReads_iff (r₁ r₂ : List String) :
    SameReads (findPool (rpc.listing r₁) mint) (findPool (rpc.listing r₂) mint) ↔
      ∃ vault, firstListed r₁ = some vault ∧ firstListed r₂ = some vault := by
  have run := findPool_listing parses found
  rw [run, run]
  constructor
  · rintro ⟨x, y, first, second, same, _⟩
    cases one : firstListed r₁ with
    | none => rw [one] at first; cases first
    | some v =>
      cases two : firstListed r₂ with
      | none => rw [two] at second; cases second
      | some w =>
        rw [one] at first
        rw [two] at second
        cases first
        cases second
        cases same
        exact ⟨v, rfl, rfl⟩
  · rintro ⟨vault, one, two⟩
    rw [one, two]
    exact ⟨_, _, rfl, rfl, rfl, fun _ _ => rfl⟩

/-- The reads of a pool are the same under two responses when both list the same account first. They
are the same under every order of one response only when the vault is all that it lists. -/
theorem quoteVault_fixed_iff :
    (∀ r₁ r₂ : List String,
      SameReads (findPool (rpc.listing r₁) mint) (findPool (rpc.listing r₂) mint) ↔
        ∃ vault, firstListed r₁ = some vault ∧ firstListed r₂ = some vault) ∧
    ∀ (r : List String) (vault : Pubkey), vault ∈ r.filterMap Pubkey.fromStr →
      ((∀ r', r'.Perm r →
          SameReads (findPool (rpc.listing r) mint) (findPool (rpc.listing r') mint)) ↔
        ∀ address ∈ r, Pubkey.fromStr address = some vault) := by
  refine ⟨sameReads_iff parses found, ?_⟩
  intro r vault real
  obtain ⟨own, own_mem, own_parses⟩ := List.mem_filterMap.mp real
  constructor
  · intro fixed address mem
    -- each account of the response can be moved to its front
    have front : ∀ a ∈ r, ∃ v, firstListed r = some v ∧ Pubkey.fromStr a = some v := by
      intro a mem
      have moved := (List.perm_cons_erase mem).symm
      obtain ⟨v, one, two⟩ := (sameReads_iff parses found _ _).mp (fixed (a :: r.erase a) moved)
      exact ⟨v, one, two⟩
    obtain ⟨v, first, own_v⟩ := front own own_mem
    obtain ⟨w, first', address_w⟩ := front address mem
    rw [first] at first'
    cases first'
    rw [address_w, ← own_v, own_parses]
  · intro only r' perm
    refine (sameReads_iff parses found _ _).mpr ⟨vault, ?_, ?_⟩
    · cases r with
      | nil => cases own_mem
      | cons a r => exact only a List.mem_cons_self
    · cases r' with
      | nil => rw [List.nil_perm.mp perm] at own_mem; cases own_mem
      | cons a r' => exact only a (perm.subset List.mem_cons_self)

end Selection

theorem listed_found {program : Pubkey}
    (parses : Pubkey.fromStr pumpSwapProgramId = some program) :
    ∃ found, findBaseVault listedRpc program ⟨0⟩ = .ok found := by
  have key : program = (Pubkey.fromStr pumpSwapProgramId).get (by decide) :=
    Option.some.inj (parses.symm.trans (Option.some_get _).symm)
  rw [key]
  exact exists_ok (by decide +kernel)

theorem quoteVault_fixed_listed :
    SameReads (findPool (listedRpc.listing [wsolMint, splTokenId]) ⟨0⟩)
      (findPool (listedRpc.listing [wsolMint]) ⟨0⟩) := by
  obtain ⟨program, parses⟩ := pumpSwapProgram_parses
  obtain ⟨⟨poolId, baseVault⟩, found⟩ := listed_found parses
  obtain ⟨vault, same⟩ := wsol_parses
  exact ((quoteVault_fixed_iff parses found).1 [wsolMint, splTokenId] [wsolMint]).mpr
    ⟨vault, same, same⟩

/-- An account listed in front of the vault takes its place. -/
theorem quoteVault_redirected :
    ¬ SameReads (findPool (listedRpc.listing [wsolMint]) ⟨0⟩)
      (findPool (listedRpc.listing [splTokenId, wsolMint]) ⟨0⟩) := by
  obtain ⟨program, parses⟩ := pumpSwapProgram_parses
  obtain ⟨⟨poolId, baseVault⟩, found⟩ := listed_found parses
  rw [sameReads_iff parses found]
  rintro ⟨vault, first, second⟩
  have different : Pubkey.fromStr wsolMint ≠ Pubkey.fromStr splTokenId := by decide
  exact different (first.trans second.symm)

end HadesPsTrader.Chain
