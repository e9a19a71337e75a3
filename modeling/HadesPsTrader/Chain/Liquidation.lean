/- Module: HadesPsTrader/Chain/Liquidation
   source: src/main.rs
   digest: Liquidate mode: the listed mints are sold one after another. -/

import HadesPsTrader.Chain.Ladder
import HadesPsTrader.Chain.SellLandings
import HadesPsTrader.Market.Position

set_option autoImplicit false
set_option relaxedAutoImplicit false

namespace HadesPsTrader.Chain

open HadesPsTrader.Market

/-- The entries of a comma-separated list, trimmed; blank ones are left out. -/
def commaList (s : String) : List String :=
  (((s.toList.splitOn ',').map trim).filter fun entry => entry ≠ []).map String.ofList

def liquidationSale (cfg : Config) (mint : String) : SellAllParams where
  mint := mint
  symbol := none
  slippagePct := cfg.trading.slippage
  priorityFeeSol := cfg.trading.priorityFeeSol
  maxRetries := cfg.trading.sellTxRetries

/-- A liquidation so far: what it put on the wire, what it reported of each mint, and how many it
counts as sold. -/
structure Liquidation where
  wire : List Wire := []
  reports : List (String × Except BoxError (Option Signature)) := []
  ok : Nat := 0

section Loop

variable (cfg : Config) (dryRun : Bool)

/-- One turn of the loop. A sale that fails is reported, and the next mint sold all the same. -/
def Liquidation.sell (s : Liquidation) (mint : String) (answers : Nat → SubmitAnswers) :
    Liquidation :=
  let sale := sellAll (jitoSettings cfg) (liquidationSale cfg mint) dryRun answers
  { wire := s.wire ++ sale.wire
    reports := s.reports ++ [(mint, sale.result)]
    ok := match sale.result with
      | .ok (some _) => s.ok + 1
      | .ok none => s.ok
      | .error _ => s.ok }

/-- Liquidate mode, with what the network replies to the sale of each listed mint. -/
def liquidate (mints : String) (answers : Nat → Nat → SubmitAnswers) : Liquidation :=
  (commaList mints).zipIdx.foldl (fun s x => s.sell cfg dryRun x.1 (answers x.2)) {}

end Loop

section Entries

theorem dropWhile_isWhitespace {cs : List Char} (plain : ∀ c ∈ cs, isWhitespace c = false) :
    cs.dropWhile isWhitespace = cs := by
  cases cs with
  | nil => rfl
  | cons c cs =>
      have solid := plain c List.mem_cons_self
      rw [List.dropWhile_cons, solid, if_neg Bool.false_ne_true]

theorem trim_plain {cs : List Char} (plain : ∀ c ∈ cs, isWhitespace c = false) :
    trim cs = cs := by
  have reversed : ∀ c ∈ cs.reverse, isWhitespace c = false := by
    intro c mem
    exact plain c (List.mem_reverse.mp mem)
  rw [trim, dropWhile_isWhitespace plain, dropWhile_isWhitespace reversed, List.reverse_reverse]

theorem commaList_intercalate {mints : List String} (some_mint : mints ≠ [])
    (filled : ∀ mint ∈ mints, mint ≠ "")
    (plain : ∀ mint ∈ mints, ∀ c ∈ mint.toList, c ≠ ',' ∧ isWhitespace c = false) :
    commaList (String.intercalate "," mints) = mints := by
  have commas : ∀ cs ∈ mints.map String.toList, ',' ∉ cs := by
    intro cs mem comma
    obtain ⟨mint, listed, rfl⟩ := List.mem_map.mp mem
    exact (plain mint listed ',' comma).1 rfl
  have split : (String.intercalate "," mints).toList.splitOn ',' = mints.map String.toList := by
    rw [String.toList_intercalate]
    exact List.splitOn_intercalate ',' commas (by simpa using some_mint)
  have trimmed : ∀ cs ∈ mints.map String.toList, trim cs = id cs := by
    intro cs mem
    obtain ⟨mint, listed, rfl⟩ := List.mem_map.mp mem
    exact trim_plain fun c here => (plain mint listed c here).2
  have kept : ∀ cs ∈ mints.map String.toList, decide (cs ≠ []) = true := by
    intro cs mem
    obtain ⟨mint, listed, rfl⟩ := List.mem_map.mp mem
    simpa using filled mint listed
  have back : ∀ mint ∈ mints, (String.ofList ∘ String.toList) mint = id mint := by
    intro mint _
    exact String.ofList_toList
  rw [commaList, split, List.map_congr_left trimmed, List.map_id, List.filter_eq_self.mpr kept,
    List.map_map, List.map_congr_left back, List.map_id]

example : commaList " a1, ,b2,, c3" = ["a1", "b2", "c3"] := by decide

end Entries

section Sales

variable {cfg : Config} {dryRun : Bool}

/-- What a turn counts as sold. -/
def isSold : Except BoxError (Option Signature) → Bool
  | .ok (some _) => true
  | .ok none => false
  | .error _ => false

def saleAt (cfg : Config) (dryRun : Bool) (answers : Nat → Nat → SubmitAnswers)
    (x : String × Nat) : Net (Option Signature) :=
  sellAll (jitoSettings cfg) (liquidationSale cfg x.1) dryRun (answers x.2)

theorem sell_eq (s : Liquidation) (answers : Nat → Nat → SubmitAnswers) (x : String × Nat) :
    s.sell cfg dryRun x.1 (answers x.2) =
      { wire := s.wire ++ (saleAt cfg dryRun answers x).wire
        reports := s.reports ++ [(x.1, (saleAt cfg dryRun answers x).result)]
        ok := s.ok + if isSold (saleAt cfg dryRun answers x).result then 1 else 0 } := by
  rw [Liquidation.sell, saleAt]
  cases (sellAll (jitoSettings cfg) (liquidationSale cfg x.1) dryRun (answers x.2)).result with
  | error e => rfl
  | ok signed =>
      cases signed with
      | none => rfl
      | some sig => rfl

theorem sell_foldl (answers : Nat → Nat → SubmitAnswers) (left : List (String × Nat))
    (s : Liquidation) :
    left.foldl (fun s x => s.sell cfg dryRun x.1 (answers x.2)) s =
      { wire := s.wire ++ (left.map fun x => (saleAt cfg dryRun answers x).wire).flatten
        reports := s.reports ++ left.map fun x => (x.1, (saleAt cfg dryRun answers x).result)
        ok := s.ok + left.countP fun x => isSold (saleAt cfg dryRun answers x).result } := by
  induction left generalizing s with
  | nil => simp
  | cons x left ih =>
      rw [List.foldl_cons, ih, sell_eq]
      simp [List.countP_cons, Nat.add_assoc, Nat.add_comm]

theorem liquidate_eq (mints : String) (answers : Nat → Nat → SubmitAnswers) :
    liquidate cfg dryRun mints answers =
      { wire := ((commaList mints).zipIdx.map fun x => (saleAt cfg dryRun answers x).wire).flatten
        reports := (commaList mints).zipIdx.map fun x =>
          (x.1, (saleAt cfg dryRun answers x).result)
        ok := (commaList mints).zipIdx.countP fun x =>
          isSold (saleAt cfg dryRun answers x).result } := by
  rw [liquidate, sell_foldl]
  simp

/-- What liquidate mode does about one mint, on the wire and in its report. -/
structure SaleMade (cfg : Config) (answers : Nat → SubmitAnswers) (mint : String)
    (wire : List Wire) (report : Except BoxError (Option Signature)) : Prop where
  climbs : Climbs (jitoSettings cfg) answers (liquidationSale cfg mint).body cfg.trading.slippage
    0 20 wire
  sold : isSold report = true ↔ ∃ n < sellMaxAttempts, (answers n).confirms (jitoSettings cfg)
  signed : report ≠ .ok none

theorem saleMade (answers : Nat → SubmitAnswers) (mint : String) :
    SaleMade cfg answers mint
      (sellAll (jitoSettings cfg) (liquidationSale cfg mint) false answers).wire
      (sellAll (jitoSettings cfg) (liquidationSale cfg mint) false answers).result where
  climbs := sellAll_climbs _ _ _
  sold := by
    rw [← sellAll_isOk (jitoSettings cfg) (liquidationSale cfg mint) answers]
    have signed := sellAll_signed (jitoSettings cfg) (liquidationSale cfg mint) answers
    cases result : (sellAll (jitoSettings cfg) (liquidationSale cfg mint) false answers).result with
    | error e => exact Iff.rfl
    | ok signature =>
        cases signature with
        | none => exact absurd result signed
        | some sig => exact Iff.rfl
  signed := sellAll_signed _ _ _

/-- Liquidate mode sells every listed mint once and in order, whatever becomes of the others: each
sale is a whole ladder of requests of its own, and what is counted as sold are the mints of which a
transaction was confirmed. Under `--dry-run` nothing leaves the bot. -/
theorem liquidate_sells_listed (cfg : Config) (mints : String)
    (answers : Nat → Nat → SubmitAnswers) :
    (∃ parts : List (List Wire), (liquidate cfg false mints answers).wire = parts.flatten ∧
      parts.length = (commaList mints).length ∧
      (liquidate cfg false mints answers).reports.length = (commaList mints).length ∧
      ∀ i mint, (commaList mints)[i]? = some mint → ∃ part report, parts[i]? = some part ∧
        (liquidate cfg false mints answers).reports[i]? = some (mint, report) ∧
        SaleMade cfg (answers i) mint part report) ∧
    (liquidate cfg false mints answers).ok =
      (liquidate cfg false mints answers).reports.countP (fun x => isSold x.2) ∧
    (liquidate cfg true mints answers).wire = [] ∧ (liquidate cfg true mints answers).ok = 0 := by
  have live := @liquidate_eq cfg false mints answers
  have dry := @liquidate_eq cfg true mints answers
  refine ⟨⟨(commaList mints).zipIdx.map fun x => (saleAt cfg false answers x).wire, ?_, ?_, ?_, ?_⟩,
    ?_, ?_, ?_⟩
  · rw [live]
  · rw [List.length_map, List.length_zipIdx]
  · rw [live, List.length_map, List.length_zipIdx]
  · intro i mint listed
    have placed : (commaList mints).zipIdx[i]? = some (mint, i) := by
      rw [List.getElem?_zipIdx, listed]
      simp
    refine ⟨_, _, ?_, ?_, saleMade (answers i) mint⟩
    · rw [List.getElem?_map, placed]
      rfl
    · rw [live, List.getElem?_map, placed]
      rfl
  · rw [live, List.countP_map]
    rfl
  · rw [dry, List.flatten_eq_nil_iff]
    intro w mem
    obtain ⟨x, _, rfl⟩ := List.mem_map.mp mem
    rfl
  · rw [dry, List.countP_eq_zero]
    intro x _
    simp [saleAt, sellAll_dry, isSold]

end Sales

end HadesPsTrader.Chain
