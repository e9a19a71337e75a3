/- Module: HadesPsTrader/Interaction/Screening
   layer: library
   digest: Checks asked one after the other: the first that is not met rejects and ends the round. -/

import HadesPsTrader.Interaction.Faults

set_option autoImplicit false
set_option relaxedAutoImplicit false

namespace HadesPsTrader.Interaction

variable {κ ε δ α : Type}

/-- The checks that were asked, in order, and whether the subject passed. -/
structure Ruling (κ : Type) where
  asked : List κ
  passed : Bool
  deriving DecidableEq

/-- One check in front of the others. Switched off it asks nothing; an error rejects, and so does an
answer out of bounds. -/
def check (c : κ) (on : Prop) [Decidable on] (answer : Except (Fault ε) α) (accepts : α → Bool)
    (next : Except (Fault δ) (Ruling κ)) : Except (Fault δ) (Ruling κ) :=
  if on then do
    match ← caught answer with
    | .ok a =>
      if accepts a then do
        let rest ← next
        return ⟨c :: rest.asked, rest.passed⟩
      else return ⟨[c], false⟩
    | .error _ => return ⟨[c], false⟩
  else next

/-- The ruling that the checks deserve: all of them are asked and met, or they are asked up to the
first one that is not met. -/
inductive Judged (Met : κ → Prop) : List κ → Ruling κ → Prop
  | passes {checks : List κ} (all : ∀ c ∈ checks, Met c) : Judged Met checks ⟨checks, true⟩
  | rejects {front back : List κ} {c : κ} (before : ∀ d ∈ front, Met d) (unmet : ¬ Met c) :
      Judged Met (front ++ c :: back) ⟨front ++ [c], false⟩

variable {Met : κ → Prop} {checks : List κ} {c : κ} {v : Ruling κ}

theorem Judged.passed_iff (judged : Judged Met checks v) :
    v.passed = true ↔ ∀ c ∈ checks, Met c := by
  cases judged with
  | passes all => exact ⟨fun _ => all, fun _ => rfl⟩
  | rejects before unmet =>
    constructor
    · nofun
    · intro all
      exact absurd (all _ (List.mem_append_right _ List.mem_cons_self)) unmet

theorem Judged.rejected (judged : Judged Met checks v) (mem : c ∈ checks) (unmet : ¬ Met c) :
    v.passed = false := by
  rw [← Bool.not_eq_true, judged.passed_iff]
  intro all
  exact unmet (all c mem)

theorem Judged.cons (met : Met c) (judged : Judged Met checks v) :
    Judged Met (c :: checks) ⟨c :: v.asked, v.passed⟩ := by
  cases judged with
  | passes all =>
    refine .passes ?_
    intro d mem
    cases mem with
    | head => exact met
    | tail _ mem => exact all d mem
  | @rejects front back d before unmet =>
    refine @Judged.rejects _ Met (c :: front) back d ?_ unmet
    intro e mem
    cases mem with
    | head => exact met
    | tail _ mem => exact before e mem

theorem check_judged (On : κ → Prop) [DecidablePred On] (c : κ) {answer : Except (Fault ε) α}
    {accepts : α → Bool} {next : Except (Fault δ) (Ruling κ)} (calm : answer ≠ .error .panicked)
    (decides : Met c ↔ ∃ a, answer = .ok a ∧ accepts a = true)
    (rest : ∃ v, next = .ok v ∧ Judged Met (checks.filter fun c => decide (On c)) v) :
    ∃ v, check c (On c) answer accepts next = .ok v ∧
      Judged Met ((c :: checks).filter fun c => decide (On c)) v := by
  obtain ⟨v, returned, judged⟩ := rest
  rw [check]
  by_cases on : On c
  · have kept : (c :: checks).filter (fun c => decide (On c)) =
        c :: checks.filter fun c => decide (On c) :=
      List.filter_cons_of_pos (p := fun c => decide (On c)) (decide_eq_true on)
    rw [if_pos on, kept]
    cases answer with
    | ok a =>
      by_cases accepted : accepts a = true
      · refine ⟨⟨c :: v.asked, v.passed⟩, ?_, judged.cons (decides.mpr ⟨a, rfl, accepted⟩)⟩
        rw [caught, ok_bind]
        simp only [accepted, if_true, returned, ok_bind]
        rfl
      · refine ⟨⟨[c], false⟩, ?_, @Judged.rejects _ Met [] _ c nofun ?_⟩
        · rw [caught, ok_bind]
          simp only [accepted]
          rfl
        · rw [decides]
          rintro ⟨b, same, accepted'⟩
          cases same
          exact accepted accepted'
    | error fault =>
      cases fault with
      | panicked => exact absurd rfl calm
      | failed e =>
        refine ⟨⟨[c], false⟩, rfl, @Judged.rejects _ Met [] _ c nofun ?_⟩
        rw [decides]
        rintro ⟨a, same, _⟩
        cases same
  · have dropped : (c :: checks).filter (fun c => decide (On c)) =
        checks.filter fun c => decide (On c) :=
      List.filter_cons_of_neg (p := fun c => decide (On c)) (by simpa using on)
    rw [if_neg on, dropped]
    exact ⟨v, returned, judged⟩

end HadesPsTrader.Interaction
