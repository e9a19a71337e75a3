/- Module: HadesPsTrader/Interaction/Refinement
   layer: library
   digest: The operations of a run, and steps of the environment that leave them as they are. -/

import Mathlib.Data.List.Basic
import HadesPsTrader.Interaction.System

set_option autoImplicit false
set_option relaxedAutoImplicit false

namespace HadesPsTrader.Interaction

variable {S L Op Env : Type} {Reply : Op → Type}

/-- The operations performed along a trace, each with its task and its answer. -/
def exchanges (tr : Trace S L Op Reply Env) : List (Nat × Sigma Reply) :=
  tr.filterMap fun x => match x.2 with
    | .perform i _ o r => some (i, ⟨o, r⟩)
    | .unroll _ => none
    | .env _ => none

section Operations

variable {tr : Trace S L Op Reply Env} {s : S} {i : Nat} {l : L} {o : Op} {r : Reply o}

theorem exchanges_perform :
    exchanges (tr ++ [(s, .perform i l o r)]) = exchanges tr ++ [(i, ⟨o, r⟩)] := by
  simp [exchanges]

theorem exchanges_unroll : exchanges (tr ++ [(s, .unroll i)]) = exchanges tr := by
  simp [exchanges]

theorem exchanges_env (e : Env) : exchanges (tr ++ [(s, .env e)]) = exchanges tr := by
  simp [exchanges]

theorem events_exchanges {ε : Type} (i : Nat) (f : (o : Op) → Reply o → Option ε)
    (tr : Trace S L Op Reply Env) : events i f tr =
      (exchanges tr).filterMap fun x => if x.1 = i then f x.2.1 x.2.2 else none := by
  rw [exchanges, List.filterMap_filterMap, events]
  apply List.filterMap_congr
  intro x _
  obtain ⟨s, e⟩ := x
  cases e with
  | perform j l o r => rfl
  | unroll j => rfl
  | env e => rfl

end Operations

/-- Steps of the environment in a row, with the tasks that they spawn. -/
inductive System.Moves (M : System S L Op Reply Env) : S → List (Proc L Op Reply Unit) → S → Prop
  | rest {s : S} : Moves M s [] s
  | move {s s₁ s₂ : S} {e : Env} {ts us : List (Proc L Op Reply Unit)}
      (granted : M.env s e = some (s₁, ts)) (later : Moves M s₁ us s₂) : Moves M s (ts ++ us) s₂

theorem System.Moves.one {M : System S L Op Reply Env} {s s₁ : S} {e : Env}
    {ts : List (Proc L Op Reply Unit)} (granted : M.env s e = some (s₁, ts)) : M.Moves s ts s₁ := by
  have moved := Moves.move granted .rest
  rwa [List.append_nil] at moved

theorem System.Moves.run {M : System S L Op Reply Env} {c₀ : Config S L Op Reply} {s s' : S}
    {ts : List (Proc L Op Reply Unit)} (moves : M.Moves s ts s') {tr : Trace S L Op Reply Env}
    {tasks : List (Proc L Op Reply Unit)} (run : Run M always c₀ tr ⟨s, tasks⟩) :
    ∃ tr', Run M always c₀ tr' ⟨s', tasks ++ ts⟩ ∧ exchanges tr' = exchanges tr ∧ tr <+: tr' := by
  induction moves generalizing tr tasks with
  | rest => exact ⟨tr, by rwa [List.append_nil], rfl, List.prefix_rfl⟩
  | move granted later ih =>
    obtain ⟨tr', reached, same, longer⟩ := ih (run.step trivial (.env granted))
    refine ⟨tr', ?_, ?_, (List.prefix_append _ _).trans longer⟩
    · rwa [List.append_assoc] at reached
    · rw [same, exchanges_env]

end HadesPsTrader.Interaction
