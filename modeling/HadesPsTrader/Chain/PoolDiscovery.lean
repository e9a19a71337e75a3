/- Module: HadesPsTrader/Chain/PoolDiscovery
   source: src/pumpswap.rs
   digest: The pool that a discovery returns belongs to the base vault it returns. -/

import Mathlib.Data.List.Basic
import HadesPsTrader.Chain.PumpSwap

set_option autoImplicit false
set_option relaxedAutoImplicit false

namespace HadesPsTrader.Chain

open Interaction

variable (tokenAt ownerAt : Pubkey → Option StoredAccount)

/-- The token account at `key` belongs to `pool`, whose own account the program owns. -/
def Pooled (key pool : Pubkey) : Prop :=
  (tokenAt key).bind StoredAccount.ownerField = some pool ∧ isPool ownerAt pool = true

/-- Among the first ten listed addresses, `key` is the first whose token account belongs to a pool,
and that pool is `pool`. -/
def FirstPooled (listed : List String) (key pool : Pubkey) : Prop :=
  ∃ before address after, listed = before ++ address :: after ∧ before.length < 10 ∧
    Pubkey.fromStr address = some key ∧ Pooled tokenAt ownerAt key pool ∧
    ∀ earlier ∈ before, ∀ k ∈ Pubkey.fromStr earlier, ∀ p, ¬ Pooled tokenAt ownerAt k p

def candidate (entry : Pubkey × Nat) : Option (Pubkey × Nat) :=
  ((tokenAt entry.1).bind StoredAccount.ownerField).map fun pk => (pk, entry.2)

theorem filterMap_split {α β : Type} {f : α → Option β} {xs : List α} {before after : List β}
    {b : β} (split : xs.filterMap f = before ++ b :: after) :
    ∃ front x rest, xs = front ++ x :: rest ∧ f x = some b ∧ front.filterMap f = before := by
  obtain ⟨front, tail, rfl, front_eq, tail_eq⟩ := List.filterMap_eq_append_iff.mp split
  obtain ⟨dropped, x, rest, rfl, gone, kept, _⟩ := List.filterMap_eq_cons_iff.mp tail_eq
  refine ⟨front ++ dropped, x, rest, (List.append_assoc ..).symm, kept, ?_⟩
  rw [List.filterMap_append, front_eq, List.filterMap_eq_nil_iff.mpr gone, List.append_nil]

section Loops

variable {ε : Type} {tokenAt ownerAt}

theorem candidatesFrom_eq (keys : List Pubkey) (idx : Nat) :
    candidatesFrom idx (keys.map tokenAt) =
      (.ok ((keys.zipIdx idx).filterMap (candidate tokenAt)) : Except (Fault ε) _) := by
  induction keys generalizing idx with
  | nil => rfl
  | cons key keys ih =>
    rw [List.map_cons, candidatesFrom, tokenOwner_eq, ih, List.zipIdx_cons, List.filterMap_cons]
    rw [candidate]
    cases (tokenAt key).bind StoredAccount.ownerField with
    | none => rfl
    | some pk => rfl

theorem candidate_eq_some {entry : Pubkey × Nat} {c : Pubkey × Nat} :
    candidate tokenAt entry = some c ↔
      (tokenAt entry.1).bind StoredAccount.ownerField = some c.1 ∧ entry.2 = c.2 := by
  rw [candidate, Option.map_eq_some_iff]
  constructor
  · rintro ⟨pk, owned, rfl⟩
    exact ⟨owned, rfl⟩
  · rintro ⟨owned, same⟩
    exact ⟨c.1, owned, Prod.ext rfl same⟩

theorem pooledFrom_eq {program : Pubkey}
    (parses : Pubkey.fromStr pumpSwapProgramId = some program) {keys : List Pubkey}
    {candidates : List (Pubkey × Nat)}
    (listed : ∀ c ∈ candidates, c.2 < keys.length) (before after : List (Pubkey × Nat))
    (split : candidates = before ++ after) :
    pooledFrom program keys candidates before.length ((after.map Prod.fst).map ownerAt) =
      (.ok ((after.find? fun c => isPool ownerAt c.1).bind fun c =>
        keys[c.2]?.map fun key => (c.1, key)) : Except (Fault ε) _) := by
  induction after generalizing before with
  | nil => rfl
  | cons c after ih =>
    have at_c : candidates[before.length]? = some c := by simp [split]
    rw [List.map_cons, List.map_cons, pooledFrom, List.find?_cons]
    have here := isPool_eq parses ownerAt c.1
    cases pooled : isPool ownerAt c.1 with
    | false =>
      have next : candidates = (before ++ [c]) ++ after := by simp [split]
      have later := ih (before ++ [c]) next
      rw [List.length_append, List.length_singleton] at later
      rw [if_neg (by rw [← here, pooled]; decide)]
      exact later
    | true =>
      have inside : c.2 < keys.length := listed c (by simp [split])
      have owner : (candidates.map Prod.fst)[before.length]? = some c.1 := by simp [at_c]
      have vault : keys[c.2]? = some keys[c.2] := List.getElem?_eq_getElem inside
      rw [if_pos (here.symm.trans pooled), index_eq_ok owner, index_eq_ok at_c]
      change (index keys c.2 >>= _) = _
      rw [index_eq_ok vault, Option.bind_some, vault]
      rfl

end Loops

section Discovery

variable {tokenAt ownerAt} {program : Pubkey}

theorem candidate_inside {keys : List Pubkey} {c : Pubkey × Nat}
    (mem : c ∈ keys.zipIdx.filterMap (candidate tokenAt)) : c.2 < keys.length := by
  obtain ⟨⟨key, i⟩, at_i, same⟩ := List.mem_filterMap.mp mem
  have index : i = c.2 := (candidate_eq_some.mp same).2
  have bound := List.snd_lt_of_mem_zipIdx at_i
  omega

theorem firstPooled_of_find {listed : List String} {keys : List Pubkey}
    (taken : (listed.take 10).filterMap Pubkey.fromStr = keys) {c : Pubkey × Nat}
    (found : (keys.zipIdx.filterMap (candidate tokenAt)).find?
      (fun c => isPool ownerAt c.1) = some c) :
    ∃ key, keys[c.2]? = some key ∧ FirstPooled tokenAt ownerAt listed key c.1 := by
  obtain ⟨isPool_c, before, after, split, none_before⟩ := List.find?_eq_some_iff_append.mp found
  obtain ⟨front, entry, rest, zipped, owned, earlier⟩ := filterMap_split split
  obtain ⟨keysBefore, keysAfter, keys_eq, front_eq, rest_eq⟩ := List.zipIdx_eq_append_iff.mp zipped
  obtain ⟨key, others, rfl, rfl, _⟩ := List.zipIdx_eq_cons_iff.mp rest_eq.symm
  obtain ⟨owned, position⟩ := candidate_eq_some.mp owned
  rw [keys_eq] at taken
  obtain ⟨addresses, address, left, listed_eq, parsed, addresses_eq⟩ := filterMap_split taken
  have short : addresses.length < 10 := by
    have total := congrArg List.length listed_eq
    simp only [List.length_take, List.length_append, List.length_cons] at total
    omega
  refine ⟨key, by simp [keys_eq, ← position], addresses, address, left ++ listed.drop 10, ?_, short,
    parsed, ⟨owned, isPool_c⟩, ?_⟩
  · rw [← List.cons_append, ← List.append_assoc, ← listed_eq, List.take_append_drop]
  · rintro text mem k parsed_k p ⟨owned_k, pool_k⟩
    have k_mem : k ∈ keysBefore := by
      rw [← addresses_eq]
      exact List.mem_filterMap.mpr ⟨text, mem, parsed_k⟩
    obtain ⟨i, at_i⟩ := List.mem_iff_getElem?.mp k_mem
    have listed_k : (p, i) ∈ before := by
      rw [← earlier, front_eq]
      exact List.mem_filterMap.mpr
        ⟨(k, i), List.mk_mem_zipIdx_iff_getElem?.mpr at_i, candidate_eq_some.mpr ⟨owned_k, rfl⟩⟩
    have notPool := none_before (p, i) listed_k
    rw [pool_k] at notPool
    exact absurd notPool (by decide)

variable {rpc : PoolRpc} (tokens : Positional rpc.tokenAccounts tokenAt)
  (owners : Positional rpc.ownerAccounts ownerAt)

include tokens owners

theorem findBaseVault_meets (parses : Pubkey.fromStr pumpSwapProgramId = some program)
    (mint : Pubkey) :
    Meets (findBaseVault rpc program mint) (fun found =>
      ∃ listed, rpc.largest mint = some (.ok listed) ∧
        FirstPooled tokenAt ownerAt listed found.2 found.1) fun _ => True := by
  unfold findBaseVault
  refine (meets_okOr (fun _ => id) fun _ => trivial).bind fun answer answered => ?_
  refine (meets_mapErr (fun _ => id) fun _ _ => trivial).bind fun listed same => ?_
  subst same
  split
  · exact meets_failed trivial
  generalize taken : (listed.take 10).filterMap Pubkey.fromStr = keys
  refine (meets_mapErr (fun _ => id) fun _ _ => trivial).bind fun accounts asked => ?_
  rw [tokens _ _ asked, candidatesFrom_eq, ok_bind]
  split
  · exact meets_failed trivial
  refine (meets_mapErr (fun _ => id) fun _ _ => trivial).bind fun accounts asked => ?_
  have inside : ∀ c ∈ keys.zipIdx.filterMap (candidate tokenAt), c.2 < keys.length :=
    fun _ => candidate_inside
  have run : pooledFrom program keys (keys.zipIdx.filterMap (candidate tokenAt)) 0
      (((keys.zipIdx.filterMap (candidate tokenAt)).map Prod.fst).map ownerAt) =
      (.ok _ : Except (Fault PoolError) _) := pooledFrom_eq parses inside [] _ rfl
  rw [owners _ _ asked, run, ok_bind]
  refine meets_okOr ?_ fun _ => trivial
  intro pair found
  obtain ⟨c, first, at_c⟩ := Option.bind_eq_some_iff.mp found
  obtain ⟨key, same, rfl⟩ := Option.map_eq_some_iff.mp at_c
  obtain ⟨key', same', pooled⟩ := firstPooled_of_find taken first
  rw [same] at same'
  cases same'
  exact ⟨listed, answered, pooled⟩

theorem findPool_meets (mint : Pubkey) :
    Meets (findPool rpc mint) (fun info =>
      ∃ listed, rpc.largest mint = some (.ok listed) ∧
        FirstPooled tokenAt ownerAt listed info.baseVault info.poolId) fun _ => True := by
  obtain ⟨program, parses⟩ := pumpSwapProgram_parses
  obtain ⟨wsol, wsol_parses⟩ := wsol_parses
  unfold findPool
  rw [parses, wsol_parses, unwrap, unwrap, ok_bind, ok_bind]
  refine (findBaseVault_meets tokens owners parses mint).bind fun found pooled => ?_
  refine (meets_mapErr (fun _ => id) fun _ _ => trivial).bind fun accounts _ => ?_
  refine (meets_okOr (fun _ => id) fun _ => trivial).bind fun vault _ => ?_
  exact meets_ok pooled

/-- Discovery returns the first listed address whose token account belongs to a pool, with that
pool; it fails where no listed address has one, and it indexes nothing out of bounds. -/
theorem findPool_pairs (mint : Pubkey) :
    findPool rpc mint ≠ .error .panicked ∧
    (∀ info, findPool rpc mint = .ok info → ∃ listed, rpc.largest mint = some (.ok listed) ∧
      FirstPooled tokenAt ownerAt listed info.baseVault info.poolId) ∧
    ((∀ listed, rpc.largest mint = some (.ok listed) → ∀ address ∈ listed.take 10,
        ∀ key ∈ Pubkey.fromStr address, ∀ pool, ¬ Pooled tokenAt ownerAt key pool) →
      ∃ e, findPool rpc mint = .error (.failed e)) := by
  have contract := findPool_meets tokens owners mint
  refine ⟨contract.calm, contract.returns, ?_⟩
  intro noPool
  apply contract.never
  rintro info ⟨listed, answered, before, address, after, rfl, short, parsed, pooled, _⟩
  have listedFirst : address ∈ (before ++ address :: after).take 10 := by
    obtain ⟨left, room⟩ := Nat.exists_eq_add_of_lt short
    have rest : 10 - before.length = left + 1 := by omega
    rw [List.take_append, rest, List.take_succ_cons]
    exact List.mem_append_right _ List.mem_cons_self
  exact noPool _ answered address listedFirst info.baseVault parsed info.poolId pooled

end Discovery

/-- A short account at one of the keys, a vault of the pool with the key of 32 ones at another. -/
def listedTokens (key : Pubkey) : Option StoredAccount :=
  if some key = Pubkey.fromStr token2022ProgramId then
    some ⟨⟨0⟩, List.replicate 32 0 ++ List.replicate 32 1⟩
  else some ⟨⟨0⟩, []⟩

def listedOwners (_ : Pubkey) : Option StoredAccount :=
  (Pubkey.fromStr pumpSwapProgramId).map fun program => ⟨program, []⟩

/-- Three listed addresses, of which the first is no address. -/
def listedRpc : PoolRpc where
  largest := fun _ => some (.ok ["vault", splTokenId, token2022ProgramId])
  tokenAccounts := fun keys => .ok (keys.map listedTokens)
  ownerAccounts := fun keys => .ok (keys.map listedOwners)
  accountsByOwner := fun _ _ => .ok [wsolMint]

theorem findPool_pairs_listed :
    ∃ info listed, findPool listedRpc ⟨0⟩ = .ok info ∧
      FirstPooled listedTokens listedOwners listed info.baseVault info.poolId := by
  have tokens := positional_of_map fun keys => (rfl : listedRpc.tokenAccounts keys = _)
  have owners := positional_of_map fun keys => (rfl : listedRpc.ownerAccounts keys = _)
  have contract := findPool_pairs tokens owners ⟨0⟩
  obtain ⟨info, returned⟩ := exists_ok (x := findPool listedRpc ⟨0⟩) (by decide +kernel)
  obtain ⟨listed, _, first⟩ := contract.2.1 info returned
  exact ⟨info, listed, returned, first⟩

end HadesPsTrader.Chain
