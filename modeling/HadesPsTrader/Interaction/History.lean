/- Module: HadesPsTrader/Interaction/History
   layer: library
   digest: What a task has performed in a run, tasks that answer for all of it, and lone tasks. -/

import Mathlib.Data.List.Induction
import HadesPsTrader.Interaction.Steady
import HadesPsTrader.Interaction.System

set_option autoImplicit false
set_option relaxedAutoImplicit false

namespace HadesPsTrader.Interaction

variable {S L Op Env : Type} {Reply : Op → Type} {α β : Type}

/-- The operations that task `i` performed along a trace, with their answers, in order. -/
def history (i : Nat) (tr : Trace S L Op Reply Env) : List (Sigma Reply) :=
  tr.filterMap fun x => match x.2 with
    | .perform j _ o r => if j = i then some ⟨o, r⟩ else none
    | .unroll _ => none
    | .env _ => none

/-- The ghost that remembers everything. `invariant` is about what was performed so far and the
locals, wherever the task stands; `permits` says what it may ask for then. -/
def recording (S : Type) (invariant : List (Sigma Reply) → L → Prop)
    (permits : List (Sigma Reply) → L → Op → Prop) :
    Protocol (List (Sigma Reply)) S L Op Reply where
  coherent done l := invariant done l
  guard done l o := permits done l o
  valid _ _ _ _ _ := True
  next done _ _ o r := done ++ [⟨o, r⟩]

section Recording

variable {invariant : List (Sigma Reply) → L → Prop}
  {permits : List (Sigma Reply) → L → Op → Prop}

theorem ghost_recording (i : Nat) (tr : Trace S L Op Reply Env) :
    ghost (recording S invariant permits) [] i tr = history i tr := by
  induction tr using List.reverseRecOn with
  | nil => rfl
  | append_singleton tr x ih =>
      obtain ⟨s, e⟩ := x
      rw [history, List.filterMap_append, ← history]
      cases e with
      | perform j l o r =>
          rw [ghost_perform, ih]
          by_cases same : j = i
          · rw [if_pos same]
            simp [recording, same]
          · rw [if_neg same]
            simp [same]
      | unroll j =>
          rw [ghost_unroll, ih]
          exact (List.append_nil _).symm
      | env e =>
          rw [ghost_env, ih]
          exact (List.append_nil _).symm

theorem Async.wp_record {o : Op} {f : Reply o → Async L Op Reply β}
    {Q : List (Sigma Reply) → L → β → Prop} {done : List (Sigma Reply)} {l : L}
    (here : invariant done l) (permitted : permits done l o)
    (answered : ∀ r, Async.wp (recording S invariant permits) (f r) Q (done ++ [⟨o, r⟩]) l) :
    Async.wp (recording S invariant permits) (Async.perform o >>= f) Q done l :=
  Async.wp_step here permitted fun _ r _ => answered r

end Recording

/-- The ghost that remembers what the operations report. `invariant` is about what was reported so
far and the locals, wherever the task stands. -/
def reporting {ε : Type} (S : Type) (report : (o : Op) → Reply o → Option ε)
    (invariant : List ε → L → Prop) : Protocol (List ε) S L Op Reply where
  coherent reported l := invariant reported l
  guard _ _ _ := True
  valid _ _ _ _ _ := True
  next reported _ _ o r := reported ++ (report o r).toList

section Reporting

variable {ε : Type} {report : (o : Op) → Reply o → Option ε} {invariant : List ε → L → Prop}

theorem ghost_reporting (i : Nat) (tr : Trace S L Op Reply Env) :
    ghost (reporting S report invariant) [] i tr = events i report tr := by
  induction tr using List.reverseRecOn with
  | nil => rfl
  | append_singleton tr x ih =>
      obtain ⟨s, e⟩ := x
      rcases e.own_or_aside i with ⟨l, o, r, rfl⟩ | aside
      · rw [ghost_perform_self, events_self, ih]
        rfl
      · rw [ghost_aside aside, events_aside aside, ih]

theorem Async.wp_unreported {o : Op} {f : Reply o → Async L Op Reply β}
    {Q : List ε → L → β → Prop} {reported : List ε} {l : L} (here : invariant reported l)
    (quiet : ∀ r, report o r = none)
    (answered : ∀ r, Async.wp (reporting S report invariant) (f r) Q reported l) :
    Async.wp (reporting S report invariant) (Async.perform o >>= f) Q reported l := by
  apply Async.wp_step here trivial
  intro s r _
  have same : (reporting S report invariant).next reported s l o r = reported := by
    simp [reporting, quiet r]
  rw [same]
  exact answered r

theorem Async.wp_reported {o : Op} {f : Reply o → Async L Op Reply β}
    {Q : List ε → L → β → Prop} {reported : List ε} {l : L} {e : ε} (here : invariant reported l)
    (reports : ∀ r, report o r = some e)
    (answered : ∀ r, Async.wp (reporting S report invariant) (f r) Q (reported ++ [e]) l) :
    Async.wp (reporting S report invariant) (Async.perform o >>= f) Q reported l := by
  apply Async.wp_step here trivial
  intro s r _
  have noted : (reporting S report invariant).next reported s l o r = reported ++ [e] := by
    simp [reporting, reports r]
  rw [noted]
  exact answered r

end Reporting

namespace Run

variable {M : System S L Op Reply Env} {c₀ c : Config S L Op Reply}
  {admits : Trace S L Op Reply Env → Config S L Op Reply → Label L Op Reply Env → Prop}
  {tr : Trace S L Op Reply Env} {invariant : List (Sigma Reply) → L → Prop}
  {permits : List (Sigma Reply) → L → Op → Prop}

/-- Tasks that answer for their history when they are spawned do so in every run, whatever they are
answered. -/
theorem recorded (Q : List (Sigma Reply) → L → Unit → Prop)
    (initial : ∀ t ∈ c₀.tasks, Proc.wp (recording S invariant permits) t Q [])
    (spawned : ∀ s e s' ts, M.env s e = some (s', ts) → ∀ t ∈ ts,
      Proc.wp (recording S invariant permits) t Q [])
    (run : Run M admits c₀ tr c) :
    ∀ (i : Nat) t, c.tasks[i]? = some t →
      Proc.wp (recording S invariant permits) t Q (history i tr) := by
  intro i t here
  have record : ghost (recording S invariant permits) [] i tr = history i tr :=
    ghost_recording i tr
  rw [← record]
  refine run.protocol _ Q [] initial spawned ?_ i t here
  intros
  trivial

theorem one_task (spawns : ∀ s e s' ts, M.env s e = some (s', ts) → ts = [])
    (single : c₀.tasks.length = 1) (run : Run M admits c₀ tr c) : c.tasks.length = 1 := by
  induction run with
  | start => exact single
  | step before admitted moved ih =>
      cases moved with
      | perform pending granted => rw [List.length_set, ih]
      | unroll pending => rw [List.length_set, ih]
      | env granted => rw [spawns _ _ _ _ granted, List.append_nil, ih]

/-- A relation of a lone task's ghost to the shared state, which its own operations keep and the
environment's steps do. -/
theorem alone {G : Type} (P : Protocol G S L Op Reply) (g₀ : G) (Φ : G → S → Prop)
    (spawns : ∀ s e s' ts, M.env s e = some (s', ts) → ts = []) (single : c₀.tasks.length = 1)
    (initial : Φ g₀ c₀.shared)
    (own : ∀ {tr c l o r s'} {resume : Reply o → Proc L Op Reply Unit}, Run M admits c₀ tr c →
      c.tasks[0]? = some (.op l o resume) → admits tr c (.perform 0 l o r) →
      Φ (ghost P g₀ 0 tr) c.shared → M.exec c.shared 0 l o r = some s' →
      Φ (P.next (ghost P g₀ 0 tr) c.shared l o r) s')
    (env : ∀ {g s e s' ts}, Φ g s → M.env s e = some (s', ts) → Φ g s')
    (run : Run M admits c₀ tr c) : Φ (ghost P g₀ 0 tr) c.shared := by
  apply run.invariant (fun tr c => Φ (ghost P g₀ 0 tr) c.shared)
  · exact initial
  intro tr c e c' before here admitted moved
  have lone := before.one_task spawns single
  cases moved with
  | @perform i l o resume r s' pending granted =>
      have spawned : i < c.tasks.length := (List.getElem?_eq_some_iff.mp pending).1
      obtain rfl : i = 0 := by omega
      rw [ghost_perform_self]
      exact own before pending admitted here granted
  | unroll pending =>
      rw [ghost_unroll]
      exact here
  | env granted =>
      rw [ghost_env]
      exact env here granted

end Run

end HadesPsTrader.Interaction
