/- Module: HadesPsTrader/Interaction/Machine
   layer: library
   digest: A machine that answers a sequence of inputs, and a register of its last alarm. -/

import Mathlib.Order.Monotone.Defs
import Mathlib.Order.Nat
import Mathlib.Tactic.Common

set_option autoImplicit false
set_option relaxedAutoImplicit false

namespace HadesPsTrader.Interaction

/-- A machine takes one input at a time, answers it and moves on. -/
structure Machine (σ α β : Type) where
  start : σ
  step : σ → α → σ × β

namespace Machine

variable {σ α β : Type} (m : Machine σ α β) (input : Nat → α)

def state : Nat → σ
  | 0 => m.start
  | n + 1 => (m.step (state n) (input n)).1

def answer (n : Nat) : β := (m.step (m.state input n) (input n)).2

@[simp] theorem state_zero : m.state input 0 = m.start := rfl

def after (inputs : List α) : σ := inputs.foldl (fun s a => (m.step s a).1) m.start

def respond (inputs : List α) (a : α) : β := (m.step (m.after inputs) a).2

theorem after_append (inputs : List α) (a : α) :
    m.after (inputs ++ [a]) = (m.step (m.after inputs) a).1 := by
  rw [after, List.foldl_append]
  rfl

theorem invariant {I : Nat → σ → Prop} (base : I 0 m.start)
    (step : ∀ n s, s = m.state input n → I n s → I (n + 1) (m.step s (input n)).1) (n : Nat) :
    I n (m.state input n) := by
  induction n with
  | zero => exact base
  | succ n ih => exact step n _ rfl ih

end Machine

/-- A register of the time of the last alarm. -/
structure LastAlarm {σ α β τ : Type} (m : Machine σ α (Option β)) (time : α → τ)
    (register : σ → Option τ) : Prop where
  start : register m.start = none
  quiet : ∀ s a, (m.step s a).2 = none → register (m.step s a).1 = register s
  alarm : ∀ s a b, (m.step s a).2 = some b → register (m.step s a).1 = some (time a)

namespace LastAlarm

variable {σ α β τ : Type} [Preorder τ] {m : Machine σ α (Option β)} {time : α → τ}
  {register : σ → Option τ} {input : Nat → α}

theorem forall_iff (last : LastAlarm m time register)
    (ordered : Monotone fun n => time (input n)) {P : τ → Prop}
    (lower : ∀ s t, s ≤ t → P t → P s) (n : Nat) :
    (∀ t ∈ register (m.state input n), P t) ↔
      ∀ k < n, (m.answer input k).isSome → P (time (input k)) := by
  induction n with
  | zero => simp [last.start]
  | succ n ih =>
    cases given : m.answer input n with
    | none =>
      have kept : register (m.state input (n + 1)) = register (m.state input n) :=
        last.quiet _ _ given
      rw [kept, ih]
      constructor
      · intro held k lt sounded
        rcases Nat.lt_succ_iff_lt_or_eq.mp lt with before | rfl
        · exact held k before sounded
        · rw [given] at sounded
          cases sounded
      · intro held k lt
        exact held k (lt.trans n.lt_succ_self)
    | some b =>
      have kept : register (m.state input (n + 1)) = some (time (input n)) :=
        last.alarm _ _ b given
      rw [kept]
      constructor
      · intro held k lt _
        have le : time (input k) ≤ time (input n) := ordered (Nat.le_of_lt_succ lt)
        exact lower _ _ le (held _ rfl)
      · intro held t mem
        cases mem
        exact held n n.lt_succ_self (by rw [given]; rfl)

end LastAlarm

end HadesPsTrader.Interaction
