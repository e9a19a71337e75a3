/- Module: HadesPsTrader/Interaction/Process
   layer: library
   digest: Resumable processes that interact by operations, with loops and labelled locals. -/

import Mathlib.Tactic.Common

set_option autoImplicit false
set_option relaxedAutoImplicit false

namespace HadesPsTrader.Interaction

/-- A suspended process over operations `Op` answered in `Reply`. Every node carries the local
variables `L` of the code at that point, so that a suspended process can be inspected. -/
inductive Proc (L Op : Type) (Reply : Op → Type) : Type → Type 1
  | ret {α : Type} (l : L) (a : α) : Proc L Op Reply α
  | op {α : Type} (l : L) (o : Op) (resume : Reply o → Proc L Op Reply α) : Proc L Op Reply α
  | loop {α β : Type} (l : L) (body : L → Proc L Op Reply (Option β))
      (exit : L → β → Proc L Op Reply α) : Proc L Op Reply α

namespace Proc

variable {L Op : Type} {Reply : Op → Type} {α β γ : Type}

/-- Sequencing hands the locals on together with the value. -/
def bind : Proc L Op Reply α → (L → α → Proc L Op Reply β) → Proc L Op Reply β
  | .ret l a, f => f l a
  | .op l o resume, f => .op l o fun r => (resume r).bind f
  | .loop l body exit, f => .loop l body fun l' b => (exit l' b).bind f

/-- One round of a loop: `none` goes round again, `some b` leaves with `b`. -/
def unroll (l : L) (body : L → Proc L Op Reply (Option β))
    (exit : L → β → Proc L Op Reply α) : Proc L Op Reply α :=
  (body l).bind fun l' x => match x with
    | none => .loop l' body exit
    | some b => exit l' b

def locals : Proc L Op Reply α → L
  | .ret l _ => l
  | .op l _ _ => l
  | .loop l _ _ => l

def finished : Proc L Op Reply α → Bool
  | .ret _ _ => true
  | .op _ _ _ => false
  | .loop _ _ _ => false

/-- How a process that is run without interruption comes to rest: it returned, or it stands at
the head of a loop. -/
inductive Rest (L α : Type)
  | returned (l : L) (a : α)
  | looping (l : L)
  deriving DecidableEq

/-- Run a process against an environment that answers each operation by itself, up to its return
or its first loop head, and keep the operations performed with their answers. -/
def play (answer : (o : Op) → Reply o) : Proc L Op Reply α → List (Sigma Reply) × Rest L α
  | .ret l a => ([], .returned l a)
  | .op _ o resume => (⟨o, answer o⟩ :: (play answer (resume (answer o))).1,
      (play answer (resume (answer o))).2)
  | .loop l _ _ => ([], .looping l)

theorem play_bind (answer : (o : Op) → Reply o) (t : Proc L Op Reply α)
    (f : L → α → Proc L Op Reply β) : (t.bind f).play answer = match t.play answer with
      | (done, .returned l a) => (done ++ ((f l a).play answer).1, ((f l a).play answer).2)
      | (done, .looping l) => (done, .looping l) := by
  induction t with
  | ret l a => rfl
  | op l o resume ih =>
      simp only [bind, play]
      rw [ih (answer o) f]
      rcases (resume (answer o)).play answer with ⟨done, rest⟩
      cases rest <;> rfl
  | loop l body exit => rfl

end Proc

/-- An `async` computation: started on the locals, it becomes a suspended process. -/
def Async (L Op : Type) (Reply : Op → Type) (α : Type) : Type 1 := L → Proc L Op Reply α

namespace Async

variable {L Op : Type} {Reply : Op → Type} {α β : Type}

instance : Monad (Async L Op Reply) where
  pure a := fun l => .ret l a
  bind m f := fun l => (m l).bind fun l' a => f a l'

def locals : Async L Op Reply L := fun l => .ret l l

def assign (f : L → L) : Async L Op Reply Unit := fun l => .ret (f l) ()

def perform (o : Op) : Async L Op Reply (Reply o) := fun l => .op l o fun r => .ret l r

/-- `loop { .. }`: repeat the body until it breaks with a value. -/
def loop (body : Async L Op Reply (Option β)) : Async L Op Reply β :=
  fun l => .loop l body fun l' b => .ret l' b

theorem locals_bind (f : L → Async L Op Reply β) (l : L) :
    (locals >>= f : Async L Op Reply β) l = f l l := rfl

section Play

variable (answer : (o : Op) → Reply o)

def play (m : Async L Op Reply α) (l : L) : List (Sigma Reply) × Proc.Rest L α :=
  (m l).play answer

@[simp] theorem play_pure (a : α) (l : L) :
    (pure a : Async L Op Reply α).play answer l = ([], .returned l a) := rfl

@[simp] theorem play_locals (l : L) :
    (locals : Async L Op Reply L).play answer l = ([], .returned l l) := rfl

@[simp] theorem play_assign (f : L → L) (l : L) :
    (assign f : Async L Op Reply Unit).play answer l = ([], .returned (f l) ()) := rfl

@[simp] theorem play_perform (o : Op) (l : L) :
    (perform o : Async L Op Reply (Reply o)).play answer l =
      ([⟨o, answer o⟩], .returned l (answer o)) := rfl

@[simp] theorem play_loop (body : Async L Op Reply (Option β)) (l : L) :
    (loop body).play answer l = ([], .looping l) := rfl

@[simp] theorem play_bind (m : Async L Op Reply α) (f : α → Async L Op Reply β) (l : L) :
    (m >>= f).play answer l = match m.play answer l with
      | (done, .returned l' a) => (done ++ ((f a).play answer l').1, ((f a).play answer l').2)
      | (done, .looping l') => (done, .looping l') :=
  Proc.play_bind answer (m l) fun l' a => f a l'

end Play

end Async

end HadesPsTrader.Interaction
