/- Module: HadesPsTrader/Tasks/Discord
   source: src/discord.rs
   digest: The discord messages: when they are posted, and the panic of their titles. -/

import HadesPsTrader.Tasks.Labels

set_option autoImplicit false
set_option relaxedAutoImplicit false

namespace HadesPsTrader.Tasks

open Interaction Market Chain

def colorGreen : Nat := 0x57F287
def colorRed : Nat := 0xED4245

structure Notifier where
  webhookUrl : Option String
  deriving DecidableEq

/-- A blank address is none. -/
def Notifier.new (webhookUrl : Option String) : Notifier where
  webhookUrl := webhookUrl.filter fun s => !(trim s.toList).isEmpty

def Notifier.enabled (n : Notifier) : Bool := n.webhookUrl.isSome

namespace Discord

def pumpfunUrl (mint : String) : String := "https://pump.fun/coin/" ++ mint

def shortMint (mint : String) : Panicking String :=
  if 8 < mint.utf8ByteSize then elide mint else .ok mint

def display (name symbol : Option String) (mint : String) : Panicking String :=
  match name, symbol with
  | some n, some s => .ok (n ++ " (" ++ s ++ ")")
  | some n, none => .ok n
  | none, some s => .ok ("(" ++ s ++ ")")
  | none, none => shortMint mint

/-- What a field of a message shows. The figures are kept as they are before they are printed. -/
inductive Shown
  | code (s : String)
  | text (s : String)
  | spent (amountSol : ℚ)
  | tokens (decimals : Nat) (t : ℚ)
  | entryPrice (priceSol : ℚ)
  | sellReason (reason : SellReason)
  | pnl (pct : ℚ)
  | netReturn (sol : ℚ)
  | buyTx (sig : Signature)
  | failure (e : BalanceError)
  deriving DecidableEq

structure Field where
  name : String
  value : Shown
  inline : Bool
  deriving DecidableEq

/-- A message apart from its timestamp. -/
structure Embed where
  title : String
  url : String
  color : Nat
  fields : List Field
  deriving DecidableEq

/-- Two decimals from one token on, and six below. -/
def formatTokens (t : ℚ) : Shown := .tokens (if 1 ≤ t then 2 else 6) t

def embed : Notice → Panicking Embed
  | .bought mint name symbol amountSol tokens entryPriceSol => do
      let shown ← display name symbol mint
      return {
        title := "BUY: " ++ shown
        url := pumpfunUrl mint
        color := colorGreen
        fields := [
          ⟨"Mint", .code mint, false⟩,
          ⟨"Spent", .spent amountSol, true⟩,
          ⟨"Tokens", formatTokens tokens, true⟩,
          ⟨"Entry Price", .entryPrice entryPriceSol, true⟩] }
  | .sold mint name symbol reason pnlPct netReturnSol => do
      let shown ← display name symbol mint
      return {
        title := "SELL: " ++ shown
        url := pumpfunUrl mint
        color := if 0 ≤ netReturnSol then colorGreen else colorRed
        fields := [
          ⟨"Mint", .code mint, false⟩,
          ⟨"Reason", .sellReason reason, false⟩,
          ⟨"PnL", .pnl pnlPct, true⟩,
          ⟨"Net Return", .netReturn netReturnSol, true⟩] }
  | .orphan mint name symbol buySig amountSol reason => do
      let shown ← display name symbol mint
      return {
        title := "ORPHAN POSITION — MANUAL SELL REQUIRED: " ++ shown
        url := pumpfunUrl mint
        color := colorRed
        fields := [
          ⟨"Mint", .code mint, false⟩,
          ⟨"Buy tx", .buyTx buySig, false⟩,
          ⟨"Spent", .spent amountSol, true⟩,
          ⟨"Reason", .failure reason, false⟩,
          ⟨"Action", .text ("Bot cannot monitor this position. Sell manually via pump.fun or " ++
            "Phantom."), false⟩] }

end Discord

/-- What is posted of a notice, and where: nothing without an address. -/
def Notifier.post (n : Notifier) (notice : Notice) : Panicking (Option (String × Discord.Embed)) :=
  match n.webhookUrl with
  | none => .ok none
  | some url => (Discord.embed notice).map fun e => some (url, e)

structure TokenLabel where
  mint : String
  name : Option String
  symbol : Option String
  deriving DecidableEq

def Notice.label : Notice → TokenLabel
  | .bought mint name symbol _ _ _ => ⟨mint, name, symbol⟩
  | .sold mint name symbol _ _ _ => ⟨mint, name, symbol⟩
  | .orphan mint name symbol _ _ _ => ⟨mint, name, symbol⟩

namespace Discord

theorem shortMint_eq (mint : String) : shortMint mint = short mint := rfl

theorem display_calm_iff (name symbol : Option String) (mint : String) :
    display name symbol mint ≠ .error .panicked ↔
      name.isSome ∨ symbol.isSome ∨ Sliceable mint := by
  cases name with
  | some n => cases symbol <;> exact iff_of_true nofun (.inl rfl)
  | none =>
      cases symbol with
      | some s => exact iff_of_true nofun (.inr (.inl rfl))
      | none =>
          rw [display, shortMint_eq, short_calm_iff]
          simp

theorem embed_calm_iff (notice : Notice) :
    embed notice ≠ .error .panicked ↔
      notice.label.name.isSome ∨ notice.label.symbol.isSome ∨ Sliceable notice.label.mint := by
  rw [← display_calm_iff]
  have titled (label : TokenLabel) (f : String → Embed) :
      (do let shown ← display label.name label.symbol label.mint
          return f shown : Panicking Embed) ≠ .error .panicked ↔
        display label.name label.symbol label.mint ≠ .error .panicked := by
    cases display label.name label.symbol label.mint with
    | ok shown => exact iff_of_true nofun nofun
    | error fault => cases fault with
      | panicked => exact iff_of_false (fun calm => calm rfl) fun calm => calm rfl
      | failed e => exact e.elim
  cases notice with
  | bought mint name symbol amountSol tokens entryPriceSol => exact titled ⟨mint, name, symbol⟩ _
  | sold mint name symbol reason pnlPct netReturnSol => exact titled ⟨mint, name, symbol⟩ _
  | orphan mint name symbol buySig amountSol reason => exact titled ⟨mint, name, symbol⟩ _

end Discord

theorem Notifier.post_calm (n : Notifier) {notice : Notice}
    (parses : (Pubkey.fromStr notice.label.mint).isSome) :
    n.post notice ≠ .error .panicked := by
  obtain ⟨key, parses⟩ := Option.isSome_iff_exists.mp parses
  have calm := (Discord.embed_calm_iff notice).mpr (.inr (.inr (sliceable_of_parses parses)))
  obtain ⟨e, shown⟩ := Panicking.returns_of_calm calm
  rw [Notifier.post, shown]
  cases n.webhookUrl <;> exact nofun

end HadesPsTrader.Tasks
