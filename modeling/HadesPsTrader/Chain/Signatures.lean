/- Module: HadesPsTrader/Chain/Signatures
   source: src/onchain.rs
   digest: The page walk that counts the signatures of the bonding curve. -/

import HadesPsTrader.Chain.Balance
import HadesPsTrader.Interaction.Faults
import HadesPsTrader.Interaction.Paging

set_option autoImplicit false
set_option relaxedAutoImplicit false

namespace HadesPsTrader.Chain

open Interaction

/-- A 64-byte signature, read as a big-endian number. -/
structure TxSignature where
  value : Nat
  deriving DecidableEq

/-- `Signature::from_str`: base58 of exactly 64 bytes. -/
def TxSignature.fromStr (s : String) : Option TxSignature :=
  let cs := s.toList
  if 88 < cs.length then none
  else (cs.mapM base58Digit).bind fun digits =>
    let n := digits.foldl (fun n d => n * 58 + d) 0
    let zeros := (digits.takeWhile (· = 0)).length
    let bytes := if n = 0 then 0 else Nat.log2 n / 8 + 1
    if zeros + bytes = 64 then some ⟨n⟩ else none

def sigPageSize : Nat := 1000

/-- 5 pages of 1000 signatures. Above this the count is capped. -/
def maxSigPages : Nat := 5

structure BondingCurveActivity where
  count : Nat
  capped : Bool
  deriving DecidableEq

/-- "N", or "N+" if the real count may be higher. -/
def BondingCurveActivity.display (a : BondingCurveActivity) : String :=
  if a.capped then toString a.count ++ "+" else toString a.count

inductive ActivityError
  | rpc (message : String)
  | cursor (signature : String)
  deriving DecidableEq

/-- The answers of `getSignaturesForAddress`, by the number of the request, the `before` cursor and
the limit. -/
abbrev SignatureRpc := Nat → Option TxSignature → Nat → Except String (List String)

/-- The loop with `left` pages to go; the next request is number `k`. -/
def txCountFrom (rpc : SignatureRpc) :
    Nat → Nat → Nat → Option TxSignature → Except (Fault ActivityError) BondingCurveActivity
  | 0, _, count, _ => .ok ⟨count, true⟩
  | left + 1, k, count, before => do
    let sigs ← mapErr .rpc (rpc k before sigPageSize)
    let count ← addWithin (2 ^ 64) count sigs.length
    if sigs.length < sigPageSize then return ⟨count, false⟩
    let last ← unwrap sigs.getLast?
    let cursor ← okOr (.cursor last) (TxSignature.fromStr last)
    txCountFrom rpc left (k + 1) count (some cursor)

def bondingCurveTxCount (rpc : SignatureRpc) : Except (Fault ActivityError) BondingCurveActivity :=
  txCountFrom rpc maxSigPages 0 0 none

/-- The signatures on the pages that the loop reads. -/
def readFrom (rpc : SignatureRpc) : Nat → Nat → Option TxSignature → List String
  | 0, _, _ => []
  | left + 1, k, before => match rpc k before sigPageSize with
    | .error _ => []
    | .ok sigs => sigs ++
        if sigs.length < sigPageSize then []
        else match sigs.getLast?.bind TxSignature.fromStr with
          | none => []
          | some cursor => readFrom rpc left (k + 1) (some cursor)

def signaturesRead (rpc : SignatureRpc) : List String := readFrom rpc maxSigPages 0 none

/-- The node serves histories of distinct signatures, newest first, that only grow at the head: an
answer holds the newest entries older than the cursor, up to the limit. -/
structure Serves (rpc : SignatureRpc) (hist : Nat → List String) : Prop where
  valid : ∀ k, ∀ s ∈ hist k, ∃ signature, TxSignature.fromStr s = some signature
  distinct : ∀ k, ((hist k).map TxSignature.fromStr).Nodup
  grows : ∀ k, hist k <:+ hist (k + 1)
  answers : ∀ k before limit sigs, rpc k before limit = .ok sigs →
    sigs = (olderThan TxSignature.fromStr (hist k) before).take limit

theorem readFrom_succ {rpc : SignatureRpc} {k : Nat} {before : Option TxSignature}
    {sigs : List String} (answered : rpc k before sigPageSize = .ok sigs) (left : Nat) :
    readFrom rpc (left + 1) k before = sigs ++
      if sigs.length < sigPageSize then []
      else match sigs.getLast?.bind TxSignature.fromStr with
        | none => []
        | some cursor => readFrom rpc left (k + 1) (some cursor) := by
  rw [readFrom, answered]

section Walk

variable {rpc : SignatureRpc} {hist : Nat → List String} (serves : Serves rpc hist)

include serves

theorem Serves.suffix (k : Nat) : hist 0 <:+ hist k := by
  induction k with
  | zero => exact List.suffix_rfl
  | succ k ih => exact ih.trans (serves.grows k)

theorem Serves.next (k : Nat) {m : Nat} {last : String} {cursor : TxSignature}
    (at_m : (hist 0)[m]? = some last) (parsed : TxSignature.fromStr last = some cursor) :
    olderThan TxSignature.fromStr (hist k) (some cursor) = (hist 0).drop (m + 1) := by
  obtain ⟨new, whole⟩ := serves.suffix k
  have distinct := serves.distinct k
  rw [← whole] at distinct ⊢
  exact olderThan_drop distinct at_m parsed

theorem Serves.cursor (k : Nat) {m : Nat} (full : sigPageSize ≤ (hist 0).length - m) :
    ∃ last cursor, (((hist 0).drop m).take sigPageSize).getLast? = some last ∧
      TxSignature.fromStr last = some cursor ∧
      olderThan TxSignature.fromStr (hist k) (some cursor) = (hist 0).drop (m + sigPageSize) := by
  have size : sigPageSize = 1000 := rfl
  have inside : m + (sigPageSize - 1) < (hist 0).length := by omega
  have at_end : (hist 0)[m + (sigPageSize - 1)]? = some (hist 0)[m + (sigPageSize - 1)] :=
    List.getElem?_eq_getElem inside
  have whole : sigPageSize ≤ (((hist 0).drop m).take sigPageSize).length := by
    rw [List.length_take, List.length_drop]
    omega
  obtain ⟨cursor, parsed⟩ := serves.valid 0 _ (List.getElem_mem inside)
  have onwards := serves.next k at_end parsed
  have step : m + (sigPageSize - 1) + 1 = m + sigPageSize := by omega
  rw [step] at onwards
  exact ⟨_, cursor, (getLast?_page whole (by decide)).trans at_end, parsed, onwards⟩

theorem txCountFrom_meets (left k m : Nat) (before : Option TxSignature)
    (fits : m + left * sigPageSize < 2 ^ 64)
    (rest : olderThan TxSignature.fromStr (hist k) before = (hist 0).drop m) :
    Meets (txCountFrom rpc left k m before) (fun a =>
        a.count = m + min ((hist 0).length - m) (left * sigPageSize) ∧
        a.capped = decide (left * sigPageSize ≤ (hist 0).length - m) ∧
        readFrom rpc left k before = ((hist 0).drop m).take (left * sigPageSize))
      (fun e => ∃ k before message, rpc k before sigPageSize = .error message ∧
        e = .rpc message) := by
  induction left generalizing k m before with
  | zero =>
    refine meets_ok ⟨?_, ?_, ?_⟩
    · simp
    · simp
    · rw [readFrom, Nat.zero_mul, List.take_zero]
  | succ left ih =>
    rw [Nat.add_mul, Nat.one_mul] at fits ⊢
    rw [txCountFrom]
    refine Meets.bind (meets_mapErr (fun _ => id)
      fun message refused => ⟨k, before, message, refused, rfl⟩) fun sigs answered => ?_
    have page : sigs = ((hist 0).drop m).take sigPageSize := by
      rw [serves.answers k before _ sigs answered, rest]
    have length : sigs.length = min sigPageSize ((hist 0).length - m) := by
      rw [page, List.length_take, List.length_drop]
    have sum : addWithin (2 ^ 64) m sigs.length =
        (.ok (m + sigs.length) : Except (Fault ActivityError) Nat) := if_pos (by omega)
    rw [sum, ok_bind]
    rw [readFrom_succ answered]
    split
    · next short =>
      have all : (hist 0).length - m < sigPageSize := by omega
      refine meets_ok ⟨?_, ?_, ?_⟩
      · simp only
        omega
      · simp only
        rw [eq_comm, decide_eq_false_iff_not]
        omega
      · rw [page, List.append_nil, List.take_of_length_le, List.take_of_length_le]
        · rw [List.length_drop]
          omega
        · rw [List.length_drop]
          omega
    · next full =>
      have whole : sigs.length = sigPageSize := by omega
      obtain ⟨last, cursor, ends, parsed, onwards⟩ :=
        serves.cursor (k + 1) (m := m) (by omega)
      rw [← page] at ends
      rw [← whole] at onwards
      rw [ends, unwrap, ok_bind, Option.bind_some, parsed, okOr, ok_bind]
      refine (ih (k + 1) (m + sigs.length) (some cursor) (by omega) onwards).mono ?_
      rintro a ⟨count, capped, others⟩
      refine ⟨by omega, ?_, ?_⟩
      · rw [capped, decide_eq_decide]
        omega
      · change sigs ++ readFrom rpc left (k + 1) (some cursor) = _
        rw [others, Nat.add_comm (left * sigPageSize), List.take_add, ← page, List.drop_drop, whole]

/-- The count is that of the history at the first request, up to five pages, and the signatures read
are its newest, each once; only a refused request fails. -/
theorem bondingCurveTxCount_counts :
    bondingCurveTxCount rpc ≠ .error .panicked ∧
    (∀ a, bondingCurveTxCount rpc = .ok a →
      a.count = min (hist 0).length 5000 ∧ a.capped = decide (5000 ≤ (hist 0).length) ∧
      a.display = (if 5000 ≤ (hist 0).length then "5000+" else toString (hist 0).length) ∧
      signaturesRead rpc = (hist 0).take 5000 ∧ (signaturesRead rpc).Nodup) ∧
    ∀ e, bondingCurveTxCount rpc = .error (.failed e) →
      ∃ k before message, rpc k before sigPageSize = .error message ∧ e = .rpc message := by
  have contract := txCountFrom_meets serves maxSigPages 0 0 none (by decide) rfl
  refine ⟨contract.calm, ?_, contract.fails⟩
  intro a returned
  obtain ⟨count, capped, read⟩ := contract.returns a returned
  have cap : maxSigPages * sigPageSize = 5000 := rfl
  rw [cap] at count capped read
  have newest : signaturesRead rpc = (hist 0).take 5000 := read
  have distinct : (hist 0).Nodup := List.Nodup.of_map _ (serves.distinct 0)
  refine ⟨by omega, capped, ?_, newest, ?_⟩
  · rw [BondingCurveActivity.display, capped, count, Nat.zero_add, Nat.sub_zero]
    by_cases full : 5000 ≤ (hist 0).length
    · rw [if_pos (decide_eq_true full), if_pos full, min_eq_right full]
      rfl
    · rw [if_neg (by simpa using full), if_neg full, min_eq_left (not_le.mp full).le]
  · rw [newest]
    exact distinct.sublist (List.take_sublist 5000 _)

end Walk

/-- The base58 text of the digits, most significant first. -/
def base58Text (digits : List Nat) : String :=
  String.ofList (digits.map fun d =>
    "123456789ABCDEFGHJKLMNPQRSTUVWXYZabcdefghijkmnopqrstuvwxyz".toList.getD d '1')

theorem mapM_base58Digit_text {digits : List Nat} (small : ∀ d ∈ digits, d < 58) :
    (base58Text digits).toList.mapM base58Digit = some digits := by
  have each : ∀ d < 58, base58Digit
      ("123456789ABCDEFGHJKLMNPQRSTUVWXYZabcdefghijkmnopqrstuvwxyz".toList.getD d '1') =
        some d := by
    decide
  rw [base58Text, String.toList_ofList]
  induction digits with
  | nil => rfl
  | cons d digits ih =>
    have first := each d (small d List.mem_cons_self)
    have others := ih fun d mem => small d (List.mem_cons_of_mem _ mem)
    rw [List.map_cons, List.mapM_cons, first, others]
    rfl

/-- The signature with the number `58 * 58 + n`, for small `n`. -/
def numberedSignature (n : Nat) : String :=
  base58Text (List.replicate 62 0 ++ [1, n / 58, n % 58])

theorem fromStr_numberedSignature {n : Nat} (small : n < 58 * 58) :
    TxSignature.fromStr (numberedSignature n) = some ⟨58 * 58 + n⟩ := by
  have digits : ∀ d ∈ List.replicate 62 0 ++ [1, n / 58, n % 58], d < 58 := by
    intro d mem
    simp only [List.mem_append, List.mem_replicate, List.mem_cons, List.not_mem_nil,
      or_false] at mem
    omega
  have short : (numberedSignature n).toList.length = 65 := by
    rw [numberedSignature, base58Text, String.toList_ofList, List.length_map, List.length_append,
      List.length_replicate]
    rfl
  have value : (List.replicate 62 0 ++ [1, n / 58, n % 58]).foldl (fun n d => n * 58 + d) 0 =
      58 * 58 + n := by
    have zeros : (List.replicate 62 0).foldl (fun n d => n * 58 + d) 0 = 0 := by decide
    rw [List.foldl_append, zeros]
    simp only [List.foldl_cons, List.foldl_nil]
    omega
  have zeros : (List.replicate 62 0 ++ [1, n / 58, n % 58]).takeWhile (· = 0) =
      List.replicate 62 0 := by
    rw [List.takeWhile_append_of_pos (by simp), List.takeWhile_cons_of_neg (by decide),
      List.append_nil]
  have low : 8 ≤ Nat.log2 (58 * 58 + n) := (Nat.le_log2 (by omega)).mpr (by omega)
  have high : Nat.log2 (58 * 58 + n) < 16 := (Nat.log2_lt (by omega)).mpr (by omega)
  have bytes : Nat.log2 (58 * 58 + n) / 8 + 1 = 2 := by omega
  have fits : ¬ 88 < (numberedSignature n).toList.length := by omega
  have nonzero : 58 * 58 + n ≠ 0 := by omega
  simp only [TxSignature.fromStr]
  rw [if_neg fits, numberedSignature, mapM_base58Digit_text digits, Option.bind_some, value,
    zeros, List.length_replicate, if_neg nonzero, bytes, if_pos rfl]

/-- That many signatures at the first request, one more in front from then on. -/
def busyHistory (size k : Nat) : List String :=
  (List.range (size + min k 1)).reverse.map numberedSignature

def busyRpc (size : Nat) : SignatureRpc := fun k before limit =>
  .ok ((olderThan TxSignature.fromStr (busyHistory size k) before).take limit)

theorem busyHistory_length (size k : Nat) : (busyHistory size k).length = size + min k 1 := by
  rw [busyHistory, List.length_map, List.length_reverse, List.length_range]

theorem busyHistory_parsed {size : Nat} (small : size + 1 < 58 * 58) (k : Nat) :
    (busyHistory size k).map TxSignature.fromStr =
      (List.range (size + min k 1)).reverse.map fun n => some ⟨58 * 58 + n⟩ := by
  rw [busyHistory, List.map_map]
  apply List.map_congr_left
  intro n mem
  rw [List.mem_reverse, List.mem_range] at mem
  exact fromStr_numberedSignature (by omega)

theorem busyHistory_serves {size : Nat} (small : size + 1 < 58 * 58) :
    Serves (busyRpc size) (busyHistory size) where
  valid := by
    intro k s mem
    have parsed : TxSignature.fromStr s ∈ (busyHistory size k).map TxSignature.fromStr :=
      List.mem_map_of_mem mem
    rw [busyHistory_parsed small, List.mem_map] at parsed
    obtain ⟨n, -, parsed⟩ := parsed
    exact ⟨_, parsed.symm⟩
  distinct := by
    intro k
    rw [busyHistory_parsed small]
    apply List.Nodup.map
    · intro m n same
      injection same with same
      injection same with same
      omega
    · exact List.nodup_reverse.mpr List.nodup_range
  grows := by
    intro k
    cases k with
    | zero =>
      refine ⟨[numberedSignature size], ?_⟩
      have newer : (List.range (size + min 1 1)).reverse =
          size :: (List.range (size + min 0 1)).reverse := by
        have last : List.range (size + min 1 1) = List.range size ++ [size] := List.range_succ
        rw [last, List.reverse_append, List.reverse_singleton, List.singleton_append]
        rfl
      rw [busyHistory, busyHistory, newer, List.map_cons, List.singleton_append]
    | succ k =>
      rw [busyHistory, busyHistory, Nat.min_eq_right (by omega), Nat.min_eq_right (by omega)]
  answers := by
    intro k before limit sigs answered
    cases answered
    rfl

/-- A page and one signature; the history grows between the two requests. -/
theorem bondingCurveTxCount_counts_busy :
    ∃ a, bondingCurveTxCount (busyRpc 1001) = .ok a ∧ a.count = 1001 ∧ a.capped = false ∧
      signaturesRead (busyRpc 1001) = busyHistory 1001 0 ∧
      busyHistory 1001 1 ≠ busyHistory 1001 0 := by
  have serves : Serves (busyRpc 1001) (busyHistory 1001) := busyHistory_serves (by decide)
  have counts := bondingCurveTxCount_counts serves
  have first : (busyHistory 1001 0).length = 1001 := busyHistory_length 1001 0
  have second : (busyHistory 1001 1).length = 1002 := busyHistory_length 1001 1
  cases returned : bondingCurveTxCount (busyRpc 1001) with
  | error fault =>
    cases fault with
    | panicked => exact absurd returned counts.1
    | failed e =>
      obtain ⟨k, before, message, refused, -⟩ := counts.2.2 e returned
      cases refused
  | ok a =>
    obtain ⟨count, capped, -, read, -⟩ := counts.2.1 a returned
    rw [first] at count capped
    refine ⟨a, rfl, count, capped, ?_, ?_⟩
    · rw [read, List.take_of_length_le (by omega)]
    · intro same
      rw [same] at second
      omega

end HadesPsTrader.Chain
