/- Module: HadesPsTrader/Tasks/Labels
   source: src/session.rs, src/copy_session.rs, src/pumpportal.rs
   digest: The shortened mints and wallets of the log lines, and the panics of their slices. -/

import HadesPsTrader.Interaction.TextCuts
import HadesPsTrader.Tasks.CrashPoints
import HadesPsTrader.Tasks.TradeFrame
import HadesPsTrader.Tasks.World

set_option autoImplicit false
set_option relaxedAutoImplicit false

namespace HadesPsTrader.Tasks

open Interaction Market Chain

/-- The first 4 and the last 4 bytes: `&mint[..4]` and `&mint[mint.len() - 4..]`. -/
def elide (mint : String) : Panicking String := do
  let front ← unwrap (splitAtChecked 4 mint.toList)
  let back ← unwrap (splitAtChecked (mint.utf8ByteSize - 4) mint.toList)
  return String.ofList front.1 ++ "…" ++ String.ofList back.2

def short (mint : String) : Panicking String :=
  if 8 < mint.utf8ByteSize then elide mint else .ok mint

def Copy.short (mint : String) : Panicking String :=
  if mint.utf8ByteSize ≤ 8 then .ok mint else elide mint

def extractMint (v : Value) : Option String :=
  ["mint", "tokenMint", "token_mint", "ca", "address"].findSome? fun key =>
    (v.get key).bind Value.asStr

/-- What `run_migration` sends on for a frame. -/
def migration (v : Value) : Option MigrationEvent :=
  (extractMint v).map fun mint =>
    { mint := mint
      name := (v.get "name").bind Value.asStr
      symbol := (v.get "symbol").bind Value.asStr }

/-- `handle` up to its first gate. -/
def handleOpening (event : MigrationEvent) : Panicking (Option Pubkey) := do
  let _tag ← short event.mint
  return Pubkey.fromStr event.mint

inductive EntryOutcome
  | badMint
  | overCap
  | full
  | entered (mint : Pubkey)
  deriving DecidableEq

/-- `copy_handle` up to the buy, with the shared state that it leaves behind. -/
def copyOpening (cfg : Config) (alpha : AlphaTrade) (w : World) : Panicking EntryOutcome × World :=
  match Copy.short alpha.mint with
  | .error fault => (.error fault, w)
  | .ok _tag =>
    match Pubkey.fromStr alpha.mint with
    | none => (.ok .badMint, w)
    | some mint =>
      match w.tracker.check w.clock cfg.copyTrade.tradeAmountSol with
      | (tracker, .error _) => (.ok .overCap, { w with tracker := tracker })
      | (tracker, .ok ()) =>
        let slot := w.openPositions
        if (cfg.copyTrade.maxPositions : Int) ≤ slot then
          (.ok .full, { w with tracker := tracker })
        else
          let w := { w with tracker := tracker, openPositions := slot + 1 }
          -- the log line of the entry, with the slot reserved
          match Copy.short alpha.trader with
          | .error fault => (.error fault, w)
          | .ok _ => (.ok (.entered mint), w)

/-- The trade for which `main` may spawn a copy session when this frame arrives. -/
def CopiedFrom (v : Value) (t : AlphaTrade) : Prop :=
  accountTrade v = some t ∧ t.txType = "buy" ∧ t.isPumpswap = true

/-- A text of at most 8 bytes, or with character boundaries 4 bytes from either end. -/
def Sliceable (s : String) : Prop :=
  s.utf8ByteSize ≤ 8 ∨
    (∃ as bs, s.toList = as ++ bs ∧ byteLen as = 4) ∧ ∃ as bs, s.toList = as ++ bs ∧ byteLen bs = 4

section Slices

theorem Copy.short_eq (mint : String) : Copy.short mint = Tasks.short mint := by
  rw [Copy.short, Tasks.short]
  by_cases brief : mint.utf8ByteSize ≤ 8
  · rw [if_pos brief, if_neg (not_lt.mpr brief)]
  · rw [if_neg brief, if_pos (not_le.mp brief)]

theorem elide_calm_iff {mint : String} (long : 4 ≤ mint.utf8ByteSize) :
    elide mint ≠ .error .panicked ↔
      (∃ as bs, mint.toList = as ++ bs ∧ byteLen as = 4) ∧
        ∃ as bs, mint.toList = as ++ bs ∧ byteLen bs = 4 := by
  rw [← byteLen_toList] at long
  rw [← isSome_splitAtChecked_iff, ← isSome_splitAtChecked_end_iff long, byteLen_toList, elide]
  cases splitAtChecked 4 mint.toList with
  | none => exact iff_of_false (fun calm => calm rfl) fun cuts => nomatch cuts.1
  | some front =>
    cases splitAtChecked (mint.utf8ByteSize - 4) mint.toList with
    | none => exact iff_of_false (fun calm => calm rfl) fun cuts => nomatch cuts.2
    | some back => exact iff_of_true nofun ⟨rfl, rfl⟩

theorem short_calm_iff (mint : String) : short mint ≠ .error .panicked ↔ Sliceable mint := by
  rw [short, Sliceable]
  split
  · next long =>
    rw [elide_calm_iff (by omega), or_iff_right (not_le.mpr long)]
  · next brief => exact iff_of_true nofun (Or.inl (not_lt.mp brief))

theorem Panicking.returns_of_calm {α : Type} {x : Panicking α} (calm : x ≠ .error .panicked) :
    ∃ a, x = .ok a := by
  cases x with
  | ok a => exact ⟨a, rfl⟩
  | error fault =>
    cases fault with
    | panicked => exact absurd rfl calm
    | failed e => exact e.elim

theorem sliceable_of_ascii {s : String} (ascii : ∀ c ∈ s.toList, c.utf8Size = 1) :
    Sliceable s := by
  by_cases brief : s.utf8ByteSize ≤ 8
  · exact Or.inl brief
  have bytes := byteLen_ascii ascii
  rw [byteLen_toList] at bytes
  right
  constructor
  · refine ⟨s.toList.take 4, s.toList.drop 4, (List.take_append_drop 4 _).symm, ?_⟩
    rw [byteLen_ascii fun c mem => ascii c (List.mem_of_mem_take mem), List.length_take]
    omega
  · refine ⟨s.toList.take (s.toList.length - 4), s.toList.drop (s.toList.length - 4),
      (List.take_append_drop _ _).symm, ?_⟩
    rw [byteLen_ascii fun c mem => ascii c (List.mem_of_mem_drop mem), List.length_drop]
    omega

theorem base58Digit_ascii {c : Char} {n : Nat} (digit : base58Digit c = some n) :
    c.utf8Size = 1 := by
  rw [base58Digit] at digit
  split at digit
  · next listed =>
    have mem := List.idxOf_lt_length_iff.mp (listed.trans_eq rfl)
    have ascii : "123456789ABCDEFGHJKLMNPQRSTUVWXYZabcdefghijkmnopqrstuvwxyz".toList.all
        (fun c => c.utf8Size == 1) = true := by decide
    exact eq_of_beq (List.all_eq_true.mp ascii c mem)
  · cases digit

theorem mapM_base58Digit {cs : List Char} {digits : List Nat}
    (decoded : cs.mapM base58Digit = some digits) : ∀ c ∈ cs, ∃ n, base58Digit c = some n := by
  induction cs generalizing digits with
  | nil => exact nofun
  | cons c cs ih =>
    rw [List.mapM_cons] at decoded
    obtain ⟨n, digit, rest⟩ := Option.bind_eq_some_iff.mp decoded
    obtain ⟨others, decoded, -⟩ := Option.bind_eq_some_iff.mp rest
    exact List.forall_mem_cons.mpr ⟨⟨n, digit⟩, ih decoded⟩

theorem sliceable_of_parses {s : String} {key : Pubkey} (parses : Pubkey.fromStr s = some key) :
    Sliceable s := by
  unfold Pubkey.fromStr at parses
  dsimp only at parses
  split at parses
  · cases parses
  obtain ⟨digits, decoded, -⟩ := Option.bind_eq_some_iff.mp parses
  apply sliceable_of_ascii
  intro c mem
  obtain ⟨n, digit⟩ := mapM_base58Digit decoded c mem
  exact base58Digit_ascii digit

end Slices

section Openings

variable {cfg : Config} {w : World} {alpha : AlphaTrade}

theorem handleOpening_calm_iff (event : MigrationEvent) :
    handleOpening event ≠ .error .panicked ↔ Sliceable event.mint := by
  rw [← short_calm_iff, handleOpening]
  cases short event.mint with
  | ok tag => exact iff_of_true nofun nofun
  | error fault =>
    cases fault with
    | panicked => exact iff_of_false (fun calm => calm rfl) fun calm => calm rfl
    | failed e => exact e.elim

/-- The gates of a copy session let the trade through to its reservation. -/
structure Admitted (cfg : Config) (w : World) (alpha : AlphaTrade) : Prop where
  parses : (Pubkey.fromStr alpha.mint).isSome
  allowed : (w.tracker.check w.clock cfg.copyTrade.tradeAmountSol).2 = .ok ()
  free : w.openPositions < cfg.copyTrade.maxPositions

theorem copyOpening_admitted (admitted : Admitted cfg w alpha) :
    (copyOpening cfg alpha w).2.openPositions = w.openPositions + 1 ∧
      ((copyOpening cfg alpha w).1 = .error .panicked ↔
        Copy.short alpha.trader = .error .panicked) := by
  obtain ⟨mint, parses⟩ := Option.isSome_iff_exists.mp admitted.parses
  have calm := (short_calm_iff alpha.mint).mpr (sliceable_of_parses parses)
  rw [← Copy.short_eq] at calm
  obtain ⟨tag, labelled⟩ := Panicking.returns_of_calm calm
  have allowed := admitted.allowed
  have room : ¬ (cfg.copyTrade.maxPositions : Int) ≤ w.openPositions := not_le.mpr admitted.free
  unfold copyOpening
  rw [labelled, parses]
  dsimp only
  generalize w.tracker.check w.clock cfg.copyTrade.tradeAmountSol = checked at allowed ⊢
  obtain ⟨tracker, result⟩ := checked
  cases allowed
  dsimp only
  rw [if_neg room]
  cases Copy.short alpha.trader with
  | ok tag => exact ⟨rfl, iff_of_false nofun nofun⟩
  | error fault =>
    cases fault with
    | panicked => exact ⟨rfl, iff_of_true rfl rfl⟩
    | failed e => exact e.elim

theorem copyOpening_refused (refused : ¬ Admitted cfg w alpha) :
    (∀ mint, (copyOpening cfg alpha w).1 ≠ .ok (.entered mint)) ∧
      ((copyOpening cfg alpha w).1 = .error .panicked ↔
        Copy.short alpha.mint = .error .panicked) := by
  unfold copyOpening
  cases Copy.short alpha.mint with
  | error fault =>
    cases fault with
    | panicked => exact ⟨nofun, iff_of_true rfl rfl⟩
    | failed e => exact e.elim
  | ok tag =>
    dsimp only
    cases parses : Pubkey.fromStr alpha.mint with
    | none => exact ⟨nofun, iff_of_false nofun nofun⟩
    | some mint =>
      cases checked : w.tracker.check w.clock cfg.copyTrade.tradeAmountSol with
      | mk tracker result =>
        cases result with
        | error spent => exact ⟨nofun, iff_of_false nofun nofun⟩
        | ok _ =>
          dsimp only
          split
          · exact ⟨nofun, iff_of_false nofun nofun⟩
          · next room =>
            have admitted : Admitted cfg w alpha := by
              refine ⟨?_, ?_, not_le.mp room⟩
              · rw [parses]
                rfl
              · rw [checked]
            exact absurd admitted refused

theorem copyOpening_calm_iff (cfg : Config) (alpha : AlphaTrade) (w : World) :
    (copyOpening cfg alpha w).1 ≠ .error .panicked ↔
      Sliceable alpha.mint ∧ (Admitted cfg w alpha → Sliceable alpha.trader) := by
  rw [← short_calm_iff, ← short_calm_iff, ← Copy.short_eq, ← Copy.short_eq]
  by_cases admitted : Admitted cfg w alpha
  · obtain ⟨-, panics⟩ := copyOpening_admitted admitted
    obtain ⟨mint, parses⟩ := Option.isSome_iff_exists.mp admitted.parses
    have calm := (short_calm_iff alpha.mint).mpr (sliceable_of_parses parses)
    rw [← Copy.short_eq] at calm
    rw [Ne, panics, and_iff_right calm]
    exact ⟨fun h _ => h, fun h => h admitted⟩
  · obtain ⟨-, panics⟩ := copyOpening_refused admitted
    rw [Ne, panics]
    exact ⟨fun h => ⟨h, fun here => absurd here admitted⟩, fun h => h.1⟩

theorem admitted_of_entered {mint : Pubkey}
    (entered : (copyOpening cfg alpha w).1 = .ok (.entered mint)) : Admitted cfg w alpha := by
  by_contra refused
  exact (copyOpening_refused refused).1 mint entered

/-- The calls of `short` that one frame can lead to, in the state that its task finds. -/
structure ShortSafe (cfg : Config) (w : World) (v : Value) : Prop where
  handle : ∀ event, migration v = some event → handleOpening event ≠ .error .panicked
  copy : ∀ t, CopiedFrom v t → (copyOpening cfg t w).1 ≠ .error .panicked
  /-- The log lines of the mirror exit label the same wallet once more. -/
  mirror : ∀ t mint, CopiedFrom v t → (copyOpening cfg t w).1 = .ok (.entered mint) →
    Copy.short t.trader ≠ .error .panicked

/-- The strings of a frame that are labelled are sliceable. -/
structure SliceableFrame (cfg : Config) (w : World) (v : Value) : Prop where
  event : ∀ mint, extractMint v = some mint → Sliceable mint
  mint : ∀ t, CopiedFrom v t → Sliceable t.mint
  trader : ∀ t, CopiedFrom v t → Admitted cfg w t → Sliceable t.trader

/-- No call of `short` panics exactly when the labelled strings are sliceable: the mint always, the
wallet of a copied trade once its slot is reserved. -/
theorem shortSafe_iff (cfg : Config) (w : World) (v : Value) :
    ShortSafe cfg w v ↔ SliceableFrame cfg w v := by
  constructor
  · rintro ⟨handle, copy, -⟩
    refine ⟨?_, ?_, ?_⟩
    · intro mint extracted
      have sent : migration v =
          some ⟨mint, (v.get "name").bind Value.asStr, (v.get "symbol").bind Value.asStr⟩ := by
        rw [migration, extracted, Option.map_some]
      exact (handleOpening_calm_iff _).mp (handle _ sent)
    · exact fun t copied => ((copyOpening_calm_iff cfg t w).mp (copy t copied)).1
    · exact fun t copied => ((copyOpening_calm_iff cfg t w).mp (copy t copied)).2
  · rintro ⟨event, mint, trader⟩
    have copy (t : AlphaTrade) (copied : CopiedFrom v t) :
        (copyOpening cfg t w).1 ≠ .error .panicked :=
      (copyOpening_calm_iff cfg t w).mpr ⟨mint t copied, trader t copied⟩
    refine ⟨?_, copy, ?_⟩
    · intro ev sent
      obtain ⟨mint, extracted, rfl⟩ := Option.map_eq_some_iff.mp sent
      exact (handleOpening_calm_iff _).mpr (event mint extracted)
    · intro t key copied entered
      rw [Copy.short_eq]
      exact (short_calm_iff _).mpr (trader t copied (admitted_of_entered entered))

end Openings

/-- A followed wallet whose text has a character across its fourth byte. -/
def accentedTrade : AlphaTrade where
  mint := "So11111111111111111111111111111111111111112"
  trader := "abcéfghij"
  txType := "buy"
  isPumpswap := true
  symbol := none
  tokenBalance := none

def freshWorld : World where
  clock := 0
  tracker := .new 2

theorem shortSafe_fails_accented :
    ¬ ShortSafe minuteConfig freshWorld accentedTrade.toValue := by
  intro safe
  have copied : CopiedFrom accentedTrade.toValue accentedTrade :=
    ⟨accountTrade_toValue accentedTrade (Or.inl rfl), rfl, rfl⟩
  exact safe.copy accentedTrade copied (by decide +kernel)

end HadesPsTrader.Tasks
