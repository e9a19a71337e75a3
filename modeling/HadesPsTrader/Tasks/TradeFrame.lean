/- Module: HadesPsTrader/Tasks/TradeFrame
   source: src/pumpportal.rs
   digest: The text frames of the account-trade feed and the trades they carry. -/

import HadesPsTrader.Tasks.Effects

set_option autoImplicit false
set_option relaxedAutoImplicit false

namespace HadesPsTrader.Tasks

/-- `serde_json::Value`. The keys of an object are distinct. -/
inductive Value
  | null
  | bool (b : Bool)
  | number (q : ℚ)
  | string (s : String)
  | array (xs : List Value)
  | object (fields : List (String × Value))

namespace Value

def get (key : String) : Value → Option Value
  | .object fields => fields.lookup key
  | _ => none

def asStr : Value → Option String
  | .string s => some s
  | _ => none

def asF64 : Value → Option ℚ
  | .number q => some q
  | _ => none

theorem asStr_eq {v : Value} {s : String} : v.asStr = some s ↔ v = .string s := by
  cases v <;> simp [asStr]

end Value

def parseTradeFrame (v : Value) : Option AlphaTrade := do
  let mint ← (← v.get "mint").asStr
  let trader ← (← v.get "traderPublicKey").asStr
  let txType ← (← v.get "txType").asStr
  if txType ≠ "buy" ∧ txType ≠ "sell" then none
  else
    let isPumpswap := (v.get "pool").bind Value.asStr = some "pump-amm"
    some
      { mint := mint
        trader := trader
        txType := txType
        isPumpswap := isPumpswap
        symbol := (v.get "symbol").bind Value.asStr
        tokenBalance := (v.get "newTokenBalance").bind Value.asF64 }

/-- What `run_account_trade` sends on for a frame: control frames are dropped. -/
def accountTrade (v : Value) : Option AlphaTrade :=
  if (v.get "message").isSome ∨ (v.get "errors").isSome then none else parseTradeFrame v

/-- What a trade says about the frame it was parsed from. -/
structure FrameOf (v : Value) (t : AlphaTrade) : Prop where
  mint : v.get "mint" = some (.string t.mint)
  trader : v.get "traderPublicKey" = some (.string t.trader)
  txType : v.get "txType" = some (.string t.txType)
  trade : t.txType = "buy" ∨ t.txType = "sell"
  pool : t.isPumpswap = true ↔ v.get "pool" = some (.string "pump-amm")

theorem frameOf_of_parse {v : Value} {t : AlphaTrade} (h : parseTradeFrame v = some t) :
    FrameOf v t := by
  unfold parseTradeFrame at h
  simp only [Option.bind_eq_bind, Option.bind_eq_some_iff] at h
  obtain ⟨_, hm, mint, hm', _, ht, trader, ht', _, hx, txType, hx', h⟩ := h
  split_ifs at h with other
  cases h
  rw [Value.asStr_eq] at hm' ht' hx'
  subst hm' ht' hx'
  refine ⟨hm, ht, hx, ?_, ?_⟩
  · rw [not_and_or, not_not, not_not] at other
    exact other
  · rw [decide_eq_true_iff]
    constructor
    · rintro ⟨x, found, str⟩
      rw [found, Value.asStr_eq.mp str]
    · intro pool
      exact ⟨_, pool, rfl⟩

theorem frameOf_of_accountTrade {v : Value} {t : AlphaTrade} (h : accountTrade v = some t) :
    FrameOf v t := by
  unfold accountTrade at h
  split_ifs at h
  exact frameOf_of_parse h

def AlphaTrade.toValue (t : AlphaTrade) : Value :=
  .object ([("mint", .string t.mint), ("traderPublicKey", .string t.trader),
    ("txType", .string t.txType),
    ("pool", .string (if t.isPumpswap then "pump-amm" else "pump"))] ++
    (t.symbol.map fun s => ("symbol", Value.string s)).toList ++
    (t.tokenBalance.map fun b => ("newTokenBalance", Value.number b)).toList)

theorem accountTrade_toValue (t : AlphaTrade) (trade : t.txType = "buy" ∨ t.txType = "sell") :
    accountTrade t.toValue = some t := by
  obtain ⟨mint, trader, txType, isPumpswap, symbol, tokenBalance⟩ := t
  have known : ¬ (txType ≠ "buy" ∧ txType ≠ "sell") := by
    rw [not_and_or, not_not, not_not]
    exact trade
  cases isPumpswap <;> cases symbol <;> cases tokenBalance <;>
    simp [accountTrade, parseTradeFrame, AlphaTrade.toValue, Value.get, List.lookup_cons,
      Value.asStr, Value.asF64, known]

end HadesPsTrader.Tasks
