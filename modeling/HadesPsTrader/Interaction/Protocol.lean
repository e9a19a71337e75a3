/- Module: HadesPsTrader/Interaction/Protocol
   layer: library
   digest: Ghost protocols and the weakest precondition of a process under one. -/

import HadesPsTrader.Interaction.Process

set_option autoImplicit false
set_option relaxedAutoImplicit false

namespace HadesPsTrader.Interaction

/-- A ghost automaton that watches one process. `coherent` relates the ghost state to the locals
wherever the process stands, `guard` says which operations it may then ask for, `valid` which
answers the environment may give, and `next` how an answered operation moves the ghost. The shared
state `S` is the one in which the operation was answered. -/
structure Protocol (G S L Op : Type) (Reply : Op → Type) where
  coherent : G → L → Prop
  guard : G → L → Op → Prop
  valid : G → S → L → (o : Op) → Reply o → Prop
  next : G → S → L → (o : Op) → Reply o → G

variable {G S L Op : Type} {Reply : Op → Type} {α β γ : Type}

namespace Proc

/-- From ghost `g` the process keeps to the protocol for ever, and returns only into `Q`. A loop is
covered by an invariant of the ghost and the locals at its head. -/
def wp (P : Protocol G S L Op Reply) {α : Type} :
    Proc L Op Reply α → (G → L → α → Prop) → G → Prop
  | .ret l a, Q, g => Q g l a
  | .op l o resume, Q, g => P.coherent g l ∧ P.guard g l o ∧
      ∀ s r, P.valid g s l o r → wp P (resume r) Q (P.next g s l o r)
  | .loop l body exit, Q, g => ∃ I : G → L → Prop, I g l ∧ ∀ g' l', I g' l' →
      P.coherent g' l' ∧ wp P (body l') (fun g'' l'' x => match x with
        | none => I g'' l''
        | some b => wp P (exit l'' b) Q g'') g'

variable {P : Protocol G S L Op Reply}

theorem wp_bind (t : Proc L Op Reply α) (f : L → α → Proc L Op Reply β)
    (Q : G → L → β → Prop) (g : G) :
    wp P (t.bind f) Q g ↔ wp P t (fun g l a => wp P (f l a) Q g) g := by
  induction t generalizing g with
  | ret l a => rfl
  | op l o resume ih => simp only [bind, wp, ih]
  | loop l body exit _ ih => simp only [bind, wp, ih]

theorem wp_mono (t : Proc L Op Reply α) {Q Q' : G → L → α → Prop}
    (weaken : ∀ g l a, Q g l a → Q' g l a) (g : G) (h : wp P t Q g) : wp P t Q' g := by
  induction t generalizing g with
  | ret l a => exact weaken g l a h
  | op l o resume ih =>
      obtain ⟨coherent, guard, answered⟩ := h
      exact ⟨coherent, guard, fun s r valid => ih r weaken _ (answered s r valid)⟩
  | loop l body exit ihBody ihExit =>
      obtain ⟨I, start, round⟩ := h
      refine ⟨I, start, fun g' l' hI => ⟨(round g' l' hI).1, ?_⟩⟩
      refine ihBody l' ?_ g' (round g' l' hI).2
      intro g'' l'' x hx
      cases x with
      | none => exact hx
      | some b => exact ihExit l'' b weaken g'' hx

theorem wp_unroll {l : L} {body : L → Proc L Op Reply (Option β)}
    {exit : L → β → Proc L Op Reply α} {Q : G → L → α → Prop} {g : G}
    (h : wp P (.loop l body exit) Q g) : wp P (unroll l body exit) Q g := by
  obtain ⟨I, start, round⟩ := h
  rw [unroll, wp_bind]
  refine wp_mono _ ?_ g (round g l start).2
  intro g' l' x hx
  cases x with
  | none => exact ⟨I, hx, round⟩
  | some b => exact hx

theorem coherent_of_running {t : Proc L Op Reply α} {Q : G → L → α → Prop} {g : G}
    (h : wp P t Q g) (running : t.finished = false) : P.coherent g t.locals := by
  cases t with
  | ret l a => cases running
  | op l o resume => exact h.1
  | loop l body exit =>
      obtain ⟨_, start, round⟩ := h
      exact (round g l start).1

theorem returned_of_finished {t : Proc L Op Reply α} {Q : G → L → α → Prop} {g : G}
    (h : wp P t Q g) (finished : t.finished = true) : ∃ a, Q g t.locals a := by
  cases t with
  | ret l a => exact ⟨a, h⟩
  | op l o resume => cases finished
  | loop l body exit => cases finished

theorem coherent_of_wp {t : Proc L Op Reply α} {Q : G → L → α → Prop} {g : G} (h : wp P t Q g)
    (returned : ∀ g l a, Q g l a → P.coherent g l) : P.coherent g t.locals := by
  cases running : t.finished with
  | false => exact coherent_of_running h running
  | true =>
      obtain ⟨a, post⟩ := returned_of_finished h running
      exact returned _ _ a post

end Proc

namespace Async

def wp (P : Protocol G S L Op Reply) (m : Async L Op Reply α) (Q : G → L → α → Prop)
    (g : G) (l : L) : Prop :=
  (m l).wp P Q g

variable {P : Protocol G S L Op Reply}

theorem wp_bind {m : Async L Op Reply α} {f : α → Async L Op Reply β} {Q : G → L → β → Prop}
    {g : G} {l : L} : wp P (m >>= f) Q g l ↔ wp P m (fun g l a => wp P (f a) Q g l) g l :=
  Proc.wp_bind (m l) (fun l a => f a l) Q g

theorem wp_locals_bind {f : L → Async L Op Reply β} {Q : G → L → β → Prop} {g : G} {l : L} :
    wp P (locals >>= f) Q g l ↔ wp P (f l) Q g l := Iff.rfl

theorem wp_assign_bind {u : L → L} {f : Unit → Async L Op Reply β} {Q : G → L → β → Prop} {g : G}
    {l : L} : wp P (assign u >>= f) Q g l ↔ wp P (f ()) Q g (u l) := Iff.rfl

/-- The rule for one operation: coherent, permitted, and whatever it is answered. -/
theorem wp_step {o : Op} {f : Reply o → Async L Op Reply β} {Q : G → L → β → Prop} {g : G} {l : L}
    (coherent : P.coherent g l) (permitted : P.guard g l o)
    (answered : ∀ s r, P.valid g s l o r → wp P (f r) Q (P.next g s l o r) l) :
    wp P (perform o >>= f) Q g l :=
  wp_bind.mpr ⟨coherent, permitted, answered⟩

theorem wp_mono (m : Async L Op Reply α) {Q Q' : G → L → α → Prop} {g : G} {l : L}
    (h : wp P m Q g l) (weaken : ∀ g l a, Q g l a → Q' g l a) : wp P m Q' g l :=
  Proc.wp_mono (m l) weaken g h

/-- The loop rule: an invariant that each round restores, or turns into the postcondition. -/
theorem wp_loop (I : G → L → Prop) {body : Async L Op Reply (Option β)}
    {Q : G → L → β → Prop} {g : G} {l : L} (start : I g l)
    (coherent : ∀ g l, I g l → P.coherent g l)
    (round : ∀ g l, I g l → wp P body (fun g l x => match x with
      | none => I g l
      | some b => Q g l b) g l) : wp P (loop body) Q g l :=
  ⟨I, start, fun g l hI => ⟨coherent g l hI, round g l hI⟩⟩

end Async

end HadesPsTrader.Interaction
