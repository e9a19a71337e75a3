/- Module: HadesPsTrader/Chain/BalanceRounds
   source: src/onchain.rs
   digest: What the balance fetch survives: the mint lookup first, then a bounded row of rounds. -/

import HadesPsTrader.Chain.Balance

set_option autoImplicit false
set_option relaxedAutoImplicit false

namespace HadesPsTrader.Chain

def AmountAnswer.Positive (a : AmountAnswer) : Prop :=
  ∃ raw decimals, a = .amount (some raw) decimals ∧ 0 < raw

/-- The direct read of a round, or one account of its owner scan, shows a positive balance. -/
def BalanceRound.Sees (r : BalanceRound) : Prop :=
  r.ata.Positive ∨ ∃ accounts, r.scan = .ok accounts ∧ ∃ a, some a ∈ accounts ∧ a.Positive

/-- What a round yields: the direct read, or else the scan. -/
def BalanceRound.yield (r : BalanceRound) : Option TokenBalance :=
  r.ata.balance.or (r.scan.toOption.bind scanOwnerForMint)

/-- What a round that yields nothing leaves in `last_err`. -/
def BalanceRound.lastErr (r : BalanceRound) : String :=
  match r.scan with
  | .error e => e
  | .ok _ => r.ata.lastErr

theorem AmountAnswer.balance_eq_none_iff (a : AmountAnswer) : a.balance = none ↔ ¬ a.Positive := by
  constructor
  · rintro nothing ⟨raw, decimals, rfl, positive⟩
    rw [balance, if_pos positive] at nothing
    cases nothing
  · intro absent
    cases a with
    | error e => rfl
    | amount raw decimals =>
      cases raw with
      | none => rfl
      | some raw => exact if_neg fun positive => absent ⟨raw, decimals, rfl, positive⟩

theorem scanOwnerForMint_eq_none_iff (accounts : List (Option AmountAnswer)) :
    scanOwnerForMint accounts = none ↔ ∀ a, some a ∈ accounts → ¬ a.Positive := by
  rw [scanOwnerForMint, List.findSome?_eq_none_iff]
  constructor
  · intro nothing a mem
    exact a.balance_eq_none_iff.mp (nothing (some a) mem)
  · rintro absent (_ | a) mem
    · rfl
    · exact a.balance_eq_none_iff.mpr (absent a mem)

theorem BalanceRound.yield_eq_none_iff (r : BalanceRound) : r.yield = none ↔ ¬ r.Sees := by
  rw [yield, Option.or_eq_none_iff, AmountAnswer.balance_eq_none_iff, Sees, not_or]
  refine and_congr_right fun _ => ?_
  cases r.scan with
  | error e => simp [Except.toOption]
  | ok accounts =>
    have scanned := scanOwnerForMint_eq_none_iff accounts
    simpa [Except.toOption] using scanned

theorem balanceFrom_succ (attempts : Nat) (round : Nat → BalanceRound) (left n : Nat)
    (lastErr : Option String) : balanceFrom attempts round (left + 1) n lastErr =
      match (round n).yield with
      | some b => .ok b
      | none => balanceFrom attempts round left (n + 1) (some (round n).lastErr) := by
  rw [balanceFrom, BalanceRound.yield, BalanceRound.lastErr]
  cases (round n).ata.balance with
  | some b => rfl
  | none =>
    cases (round n).scan with
    | error e => rfl
    | ok accounts =>
      cases found : scanOwnerForMint accounts with
      | some b => simp [Except.toOption, found]
      | none => simp [Except.toOption, found]

section Rounds

variable {attempts : Nat} {round : Nat → BalanceRound} {left n : Nat} {lastErr : Option String}

theorem balanceFrom_add {blind : Nat} (nothing : ∀ k < blind, ¬ (round (n + k)).Sees) :
    ∃ lastErr', balanceFrom attempts round (blind + left) n lastErr =
      balanceFrom attempts round left (n + blind) lastErr' := by
  induction blind generalizing n lastErr with
  | zero => exact ⟨lastErr, by rw [Nat.zero_add, Nat.add_zero]⟩
  | succ blind ih =>
    have first : (round n).yield = none := (round n).yield_eq_none_iff.mpr (nothing 0 (by omega))
    have rest : ∀ k < blind, ¬ (round (n + 1 + k)).Sees := by
      intro k lt
      have later := nothing (k + 1) (by omega)
      rwa [← Nat.add_assoc, Nat.add_right_comm] at later
    obtain ⟨lastErr', steps⟩ : ∃ lastErr', balanceFrom attempts round (blind + left) (n + 1)
        (some (round n).lastErr) = balanceFrom attempts round left (n + 1 + blind) lastErr' :=
      ih rest
    refine ⟨lastErr', ?_⟩
    rw [Nat.add_right_comm, balanceFrom_succ, first, ← Nat.add_assoc, Nat.add_right_comm, ← steps]

theorem balanceFrom_sees {k : Nat} (lt : k < left) (sees : (round (n + k)).Sees) :
    ∃ b, balanceFrom attempts round left n lastErr = .ok b := by
  induction left generalizing n k lastErr with
  | zero => omega
  | succ left ih =>
    rw [balanceFrom_succ]
    cases seen : (round n).yield with
    | some b => exact ⟨b, rfl⟩
    | none =>
      have blind := (round n).yield_eq_none_iff.mp seen
      cases k with
      | zero => exact absurd sees blind
      | succ k =>
        have later : (round (n + 1 + k)).Sees := by rwa [Nat.add_right_comm, Nat.add_assoc]
        exact ih (by omega) later

end Rounds

/-- A result of the fetch over its rounds: an error comes only after all of them, each of which saw
nothing; a round that sees a balance brings one; and rounds that see nothing, whatever fails in
them, leave the fetch as it is with the remaining ones. -/
structure RidesOut (attempts : Nat) (round : Nat → BalanceRound)
    (result : Except BalanceError TokenBalance) : Prop where
  patient : ∀ e, result = .error e →
    (∃ lastErr, e = .noBalance attempts lastErr) ∧ ∀ n < attempts, ¬ (round n).Sees
  rewarded : (∃ n < attempts, (round n).Sees) → ∃ b, result = .ok b ∧ 0 < b.rawAmount
  resumes : ∀ n ≤ attempts, (∀ k < n, ¬ (round k).Sees) →
    ∃ lastErr, result = balanceFrom attempts round (attempts - n) n lastErr

theorem balanceFrom_ridesOut (attempts : Nat) (round : Nat → BalanceRound) :
    RidesOut attempts round (balanceFrom attempts round attempts 0 none) := by
  have resumes : ∀ n ≤ attempts, (∀ k < n, ¬ (round k).Sees) → ∃ lastErr,
      balanceFrom attempts round attempts 0 none =
        balanceFrom attempts round (attempts - n) n lastErr := by
    intro n le blind
    have nothing : ∀ k < n, ¬ (round (0 + k)).Sees := by simpa only [Nat.zero_add] using blind
    obtain ⟨lastErr, steps⟩ : ∃ lastErr, balanceFrom attempts round (n + (attempts - n)) 0 none =
        balanceFrom attempts round (attempts - n) (0 + n) lastErr := balanceFrom_add nothing
    rw [Nat.add_sub_cancel' le, Nat.zero_add] at steps
    exact ⟨lastErr, steps⟩
  have rewarded : (∃ n < attempts, (round n).Sees) →
      ∃ b, balanceFrom attempts round attempts 0 none = .ok b := by
    rintro ⟨n, lt, sees⟩
    exact balanceFrom_sees lt (by rwa [Nat.zero_add])
  refine ⟨?_, ?_, resumes⟩
  · intro e failed
    have blind : ∀ n < attempts, ¬ (round n).Sees := by
      intro n lt sees
      obtain ⟨b, found⟩ := rewarded ⟨n, lt, sees⟩
      rw [failed] at found
      cases found
    obtain ⟨lastErr, spent⟩ := resumes attempts le_rfl blind
    rw [Nat.sub_self, failed] at spent
    exact ⟨⟨lastErr, by cases spent; rfl⟩, blind⟩
  · intro some_sees
    obtain ⟨b, found⟩ := rewarded some_sees
    exact ⟨b, found, balanceFrom_pos attempts round attempts 0 none found⟩

/-- The balance fetch rides out its rounds, once the mint's token program is known; a lookup that
fails ends it before the first of them. -/
theorem balance_fetch_rides_out (attempts : Nat) (answers : BalanceAnswers) :
    (∀ e, resolveTokenProgram answers.mintAccount = .error e →
      fetchTokenBalance attempts answers = .error e) ∧
    ∀ program, resolveTokenProgram answers.mintAccount = .ok program →
      RidesOut attempts answers.round (fetchTokenBalance attempts answers) := by
  constructor
  · intro e failed
    rw [fetchTokenBalance, failed]
    rfl
  · intro program resolved
    have rounds : fetchTokenBalance attempts answers =
        balanceFrom attempts answers.round attempts 0 none := by
      rw [fetchTokenBalance, resolved]
      rfl
    rw [rounds]
    exact balanceFrom_ridesOut attempts answers.round

/-- The node fails the first mint lookup, though every round would show a thousand tokens. -/
def lookupError : BalanceAnswers where
  mintAccount _ := .error "timed out"
  round _ := ⟨.amount (some 1000) 6, .ok []⟩

/-- One RPC error in the mint lookup ends a fetch of twenty rounds. -/
theorem lookup_error_ends_fetch :
    ¬ ∀ attempts, 1 ≤ attempts → ∀ answers,
      RidesOut attempts answers.round (fetchTokenBalance attempts answers) := by
  intro claimed
  have rides := claimed 20 (by decide) lookupError
  have sees : (lookupError.round 0).Sees := .inl ⟨1000, 6, rfl, by decide⟩
  obtain ⟨b, found, -⟩ := rides.rewarded ⟨0, by decide, sees⟩
  cases found

end HadesPsTrader.Chain
