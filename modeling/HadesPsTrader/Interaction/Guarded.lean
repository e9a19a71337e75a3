/- Module: HadesPsTrader/Interaction/Guarded
   layer: library
   digest: A machine computed by operations that may be undefined, beside its total version. -/

import HadesPsTrader.Interaction.Machine

set_option autoImplicit false
set_option relaxedAutoImplicit false

namespace HadesPsTrader.Interaction

/-- The step of a machine, computed by operations that may be undefined. On safe inputs it is the
step of the machine, on the others there is none. -/
structure Guarded {σ α β : Type} (m : Machine σ α β) (ε : Type) where
  step : σ → α → Except ε (σ × β)
  Safe : σ → α → Prop
  defined : ∀ {s : σ} {a : α}, Safe s a → step s a = .ok (m.step s a)
  undefined : ∀ {s : σ} {a : α}, ¬ Safe s a → ∃ e, step s a = .error e

namespace Guarded

variable {σ α β ε : Type} {m : Machine σ α β} (g : Guarded m ε) (input : Nat → α)

/-- The state that input `n` finds, where every step before it is defined. -/
def state : Nat → Except ε σ
  | 0 => .ok m.start
  | n + 1 => do
    let s ← state n
    let next ← g.step s (input n)
    return next.1

variable {g input}

theorem state_succ_of_safe {n : Nat} {s : σ} (here : g.state input n = .ok s)
    (safe : g.Safe s (input n)) : g.state input (n + 1) = .ok (m.step s (input n)).1 := by
  rw [state, here]
  change (g.step s (input n) >>= _) = _
  rw [g.defined safe]
  rfl

theorem state_succ_of_not_safe {n : Nat} {s : σ} (here : g.state input n = .ok s)
    (not_safe : ¬ g.Safe s (input n)) : ∃ e, g.state input (n + 1) = .error e := by
  obtain ⟨e, stopped⟩ := g.undefined not_safe
  refine ⟨e, ?_⟩
  rw [state, here]
  change (g.step s (input n) >>= _) = _
  rw [stopped]
  rfl

theorem state_eq_ok_iff {n : Nat} {s : σ} : g.state input n = .ok s ↔
    s = m.state input n ∧ ∀ i < n, g.Safe (m.state input i) (input i) := by
  induction n generalizing s with
  | zero =>
    constructor
    · intro same
      cases same
      exact ⟨rfl, fun i lt => absurd lt i.not_lt_zero⟩
    · rintro ⟨rfl, -⟩
      rfl
  | succ n ih =>
    constructor
    · intro same
      cases before : g.state input n with
      | error e =>
        rw [state, before] at same
        cases same
      | ok s' =>
        obtain ⟨rfl, safe⟩ := ih.mp before
        by_cases here : g.Safe (m.state input n) (input n)
        · rw [state_succ_of_safe before here] at same
          cases same
          refine ⟨rfl, ?_⟩
          intro i lt
          rcases Nat.lt_succ_iff_lt_or_eq.mp lt with earlier | rfl
          · exact safe i earlier
          · exact here
        · obtain ⟨e, stopped⟩ := state_succ_of_not_safe before here
          rw [stopped] at same
          cases same
    · rintro ⟨rfl, safe⟩
      have before : g.state input n = .ok (m.state input n) :=
        ih.mpr ⟨rfl, fun i lt => safe i (lt.trans n.lt_succ_self)⟩
      exact state_succ_of_safe before (safe n n.lt_succ_self)

theorem forall_defined_iff : (∀ n, ∃ s, g.state input n = .ok s) ↔
    ∀ n s, g.state input n = .ok s → g.Safe s (input n) := by
  constructor
  · intro reached n s here
    obtain ⟨s', next⟩ := reached (n + 1)
    obtain ⟨-, safe⟩ := state_eq_ok_iff.mp next
    obtain ⟨rfl, -⟩ := state_eq_ok_iff.mp here
    exact safe n n.lt_succ_self
  · intro safe n
    induction n with
    | zero => exact ⟨m.start, rfl⟩
    | succ n ih =>
      obtain ⟨s, here⟩ := ih
      exact ⟨_, state_succ_of_safe here (safe n s here)⟩

end Guarded

end HadesPsTrader.Interaction
