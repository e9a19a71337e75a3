/- Module: HadesPsTrader/Chain/Lookups
   source: src/onchain.rs
   digest: The account lookup that waits for an account to become visible. -/

import HadesPsTrader.Chain.Balance

set_option autoImplicit false
set_option relaxedAutoImplicit false

namespace HadesPsTrader.Chain

variable {α : Type}

inductive LookupError
  | getAccount (message : String)
  | notVisible
  deriving DecidableEq

/-- Rounds `n` on of `get_account_with_retry`: "not visible yet" is asked again, an RPC error ends
the lookup. -/
def lookupFrom (answers : Nat → Except String (Option α)) : Nat → Nat → Except LookupError α
  | 0, _ => .error .notVisible
  | left + 1, n => match answers n with
    | .ok (some acc) => .ok acc
    | .ok none => lookupFrom answers left (n + 1)
    | .error e => .error (.getAccount e)

def lookup (answers : Nat → Except String (Option α)) : Except LookupError α :=
  lookupFrom answers accountLookupAttempts 0

/-- The account is there in one of the four rounds, and not visible in the rounds before. -/
def Visible (answers : Nat → Except String (Option α)) (acc : α) : Prop :=
  ∃ k < 4, answers k = .ok (some acc) ∧ ∀ i < k, answers i = .ok none

theorem lookupFrom_eq_ok_iff {answers : Nat → Except String (Option α)} {left n : Nat} {acc : α} :
    lookupFrom answers left n = .ok acc ↔
      ∃ k < left, answers (n + k) = .ok (some acc) ∧ ∀ i < k, answers (n + i) = .ok none := by
  induction left generalizing n with
  | zero =>
    rw [lookupFrom]
    constructor
    · nofun
    · rintro ⟨k, lt, _⟩
      exact absurd lt (Nat.not_lt_zero k)
  | succ left ih =>
    have shift : ∀ k, n + 1 + k = n + (k + 1) := fun k => by omega
    have later := ih (n := n + 1)
    simp only [shift] at later
    rw [lookupFrom]
    cases first : answers n with
    | error e =>
      constructor
      · nofun
      · rintro ⟨k, _, seen, blind⟩
        cases k with
        | zero => cases first.symm.trans seen
        | succ k => cases first.symm.trans (blind 0 k.succ_pos)
    | ok answer =>
      cases answer with
      | none =>
        change lookupFrom answers left (n + 1) = .ok acc ↔ _
        rw [later]
        constructor
        · rintro ⟨k, lt, seen, blind⟩
          refine ⟨k + 1, by omega, seen, ?_⟩
          intro i before
          cases i with
          | zero => exact first
          | succ i => exact blind i (by omega)
        · rintro ⟨k, lt, seen, blind⟩
          cases k with
          | zero => cases first.symm.trans seen
          | succ k => exact ⟨k, by omega, seen, fun i before => blind (i + 1) (by omega)⟩
      | some other =>
        constructor
        · intro same
          cases same
          exact ⟨0, left.succ_pos, first, fun i before => absurd before (Nat.not_lt_zero i)⟩
        · rintro ⟨k, _, seen, blind⟩
          cases k with
          | zero =>
            cases first.symm.trans seen
            rfl
          | succ k => cases first.symm.trans (blind 0 k.succ_pos)

theorem lookup_eq_ok_iff {answers : Nat → Except String (Option α)} {acc : α} :
    lookup answers = .ok acc ↔ Visible answers acc := by
  have found := @lookupFrom_eq_ok_iff α answers accountLookupAttempts 0 acc
  simp only [Nat.zero_add] at found
  exact found

theorem Visible.unique {answers : Nat → Except String (Option α)} {acc acc' : α}
    (here : Visible answers acc) (there : Visible answers acc') : acc = acc' := by
  have same := (lookup_eq_ok_iff.mpr here).symm.trans (lookup_eq_ok_iff.mpr there)
  exact Except.ok.inj same

/-- The error of the lookup, as the balance fetch passes it on. -/
def LookupError.toBalance : LookupError → BalanceError
  | .getAccount message => .getAccount message
  | .notVisible => .notVisible

theorem getAccountWithRetry_eq (answers : Nat → AccountAnswer) :
    getAccountWithRetry answers = (lookup answers).mapError LookupError.toBalance := by
  suffices h : ∀ left n, accountFrom answers left n =
      (lookupFrom answers left n).mapError LookupError.toBalance from h accountLookupAttempts 0
  intro left
  induction left with
  | zero => exact fun n => rfl
  | succ left ih =>
    intro n
    rw [accountFrom, lookupFrom]
    rcases answers n with e | _ | owner
    · rfl
    · exact ih (n + 1)
    · rfl

end HadesPsTrader.Chain
