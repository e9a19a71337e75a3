/- Module: HadesPsTrader/Interaction/Steady
   layer: library
   digest: Computations that lead from coherent states to coherent states, and those that ask for
   harmless operations only. -/

import HadesPsTrader.Interaction.Protocol

set_option autoImplicit false
set_option relaxedAutoImplicit false

namespace HadesPsTrader.Interaction

variable {G S L Op : Type} {Reply : Op → Type} {α β : Type}

/-- Started in `J`, the computation keeps to the protocol and returns in `J`. -/
def Async.Keeps (P : Protocol G S L Op Reply) (J : G → L → Prop) (m : Async L Op Reply α) : Prop :=
  ∀ g l, J g l → Async.wp P m (fun g l _ => J g l) g l

namespace Async.Keeps

variable {P : Protocol G S L Op Reply} {J : G → L → Prop}

theorem pure (a : α) : Keeps P J (Pure.pure a : Async L Op Reply α) := by
  intro g l here
  exact here

theorem locals : Keeps P J (Async.locals : Async L Op Reply L) := by
  intro g l here
  exact here

theorem assign {u : L → L} (kept : ∀ g l, J g l → J g (u l)) :
    Keeps P J (Async.assign u : Async L Op Reply Unit) := by
  intro g l here
  exact kept g l here

theorem perform {o : Op} (coherent : ∀ g l, J g l → P.coherent g l)
    (permitted : ∀ g l, J g l → P.guard g l o)
    (kept : ∀ g s l r, J g l → P.valid g s l o r → J (P.next g s l o r) l) :
    Keeps P J (Async.perform o : Async L Op Reply (Reply o)) := by
  intro g l here
  refine ⟨coherent g l here, permitted g l here, ?_⟩
  intro s r answered
  exact kept g s l r here answered

/-- An operation that keeps `J`, in front of a computation started on the same locals. -/
theorem step {o : Op} (keeps : Keeps P J (Async.perform o : Async L Op Reply (Reply o))) {g : G}
    {l : L} (here : J g l) {f : Reply o → Async L Op Reply β} {Q : G → L → β → Prop}
    (rest : ∀ g' r, J g' l → Async.wp P (f r) Q g' l) :
    Async.wp P (Async.perform o >>= f) Q g l := by
  obtain ⟨coherent, permitted, answered⟩ := keeps g l here
  apply Async.wp_step coherent permitted
  intro s r valid
  exact rest _ r (answered s r valid)

theorem bind {m : Async L Op Reply α} {f : α → Async L Op Reply β} (first : Keeps P J m)
    (rest : ∀ a, Keeps P J (f a)) : Keeps P J (m >>= f) := by
  intro g l here
  rw [Async.wp_bind]
  refine Async.wp_mono m (first g l here) ?_
  intro g' l' a here'
  exact rest a g' l' here'

theorem locals_bind {f : L → Async L Op Reply β} (rest : ∀ g l, J g l → Keeps P J (f l)) :
    Keeps P J (Async.locals >>= f) := by
  intro g l here
  exact rest g l here g l here

theorem loop {body : Async L Op Reply (Option β)} (coherent : ∀ g l, J g l → P.coherent g l)
    (round : Keeps P J body) : Keeps P J (Async.loop body) := by
  intro g l here
  refine Async.wp_loop J here coherent ?_
  intro g' l' here'
  refine Async.wp_mono body (round g' l' here') ?_
  intro g'' l'' x here''
  cases x with
  | none => exact here''
  | some b => exact here''

end Async.Keeps

/-- Started where the protocol is coherent, the computation keeps to it and returns there. -/
def Async.Coheres (P : Protocol G S L Op Reply) (m : Async L Op Reply α) : Prop :=
  ∀ g l, P.coherent g l → Async.wp P m (fun g l _ => P.coherent g l) g l

namespace Async.Coheres

variable {P : Protocol G S L Op Reply}

theorem pure (a : α) : Coheres P (Pure.pure a : Async L Op Reply α) := Keeps.pure a

theorem assign {u : L → L} (kept : ∀ g l, P.coherent g l → P.coherent g (u l)) :
    Coheres P (Async.assign u : Async L Op Reply Unit) := Keeps.assign kept

theorem perform {o : Op} (permitted : ∀ g l, P.coherent g l → P.guard g l o)
    (kept : ∀ g s l r, P.coherent g l → P.valid g s l o r → P.coherent (P.next g s l o r) l) :
    Coheres P (Async.perform o : Async L Op Reply (Reply o)) :=
  Keeps.perform (fun _ _ here => here) permitted kept

theorem bind {m : Async L Op Reply α} {f : α → Async L Op Reply β} (first : Coheres P m)
    (rest : ∀ a, Coheres P (f a)) : Coheres P (m >>= f) := Keeps.bind first rest

theorem loop {body : Async L Op Reply (Option β)} (round : Coheres P body) :
    Coheres P (Async.loop body) := Keeps.loop (fun _ _ here => here) round

end Async.Coheres

/-- The protocol without a ghost: locals in `I` wherever the process stands, and only operations in
`plain`. -/
def steady (S : Type) (plain : Op → Prop) (I : L → Prop) : Protocol Unit S L Op Reply where
  coherent _ l := I l
  guard _ _ o := plain o
  valid _ _ _ _ _ := True
  next _ _ _ _ _ := ()

variable {plain : Op → Prop} {I : L → Prop}

theorem Proc.wp_of_steady {P : Protocol G S L Op Reply} {g : G}
    (coherent : ∀ l, I l → P.coherent g l) (permitted : ∀ l o, I l → plain o → P.guard g l o)
    (idle : ∀ s l o r, plain o → P.next g s l o r = g) (t : Proc L Op Reply α)
    {Q : Unit → L → α → Prop} (h : t.wp (steady S plain I) Q ()) :
    t.wp P (fun g' l a => g' = g ∧ Q () l a) g := by
  induction t with
  | ret l a => exact ⟨rfl, h⟩
  | op l o resume ih =>
      obtain ⟨inside, asked, answered⟩ := h
      refine ⟨coherent l inside, permitted l o inside asked, ?_⟩
      intro s r _
      rw [idle s l o r asked]
      exact ih r (answered s r trivial)
  | loop l body exit ihBody ihExit =>
      obtain ⟨J, start, round⟩ := h
      refine ⟨fun g' l' => g' = g ∧ J () l', ⟨rfl, start⟩, ?_⟩
      rintro g' l' ⟨rfl, here⟩
      obtain ⟨inside, once⟩ := round () l' here
      refine ⟨coherent l' inside, Proc.wp_mono _ ?_ g' (ihBody l' once)⟩
      rintro g'' l'' x ⟨rfl, left⟩
      cases x with
      | none => exact ⟨rfl, left⟩
      | some b => exact ihExit l'' b left

/-- Started in `I`, the computation stays in `I`, asks for operations in `plain` only, and returns
in `I`, whatever it is answered. -/
def Async.Steady (S : Type) (plain : Op → Prop) (I : L → Prop) (m : Async L Op Reply α) : Prop :=
  ∀ l, I l → Async.wp (steady S plain I) m (fun _ l _ => I l) () l

theorem Async.steady_iff {m : Async L Op Reply α} :
    Async.Steady S plain I m ↔ Async.Coheres (steady S plain I) m :=
  ⟨fun calm _ l => calm l, fun coheres l => coheres () l⟩

namespace Async.Steady

theorem pure (a : α) : Steady S plain I (Pure.pure a : Async L Op Reply α) :=
  steady_iff.mpr (.pure a)

theorem locals : Steady S plain I (Async.locals : Async L Op Reply L) := by
  intro l inside
  exact inside

theorem assign {u : L → L} (stays : ∀ l, I l → I (u l)) :
    Steady S plain I (Async.assign u : Async L Op Reply Unit) :=
  steady_iff.mpr (.assign fun _ => stays)

theorem perform {o : Op} (asked : plain o) :
    Steady S plain I (Async.perform o : Async L Op Reply (Reply o)) := by
  apply steady_iff.mpr
  apply Coheres.perform
  · exact fun _ _ _ => asked
  · exact fun _ _ _ _ inside _ => inside

theorem bind {m : Async L Op Reply α} {f : α → Async L Op Reply β} (first : Steady S plain I m)
    (rest : ∀ a, Steady S plain I (f a)) : Steady S plain I (m >>= f) :=
  steady_iff.mpr ((steady_iff.mp first).bind fun a => steady_iff.mp (rest a))

theorem loop {body : Async L Op Reply (Option β)} (round : Steady S plain I body) :
    Steady S plain I (Async.loop body) :=
  steady_iff.mpr (steady_iff.mp round).loop

theorem wp {P : Protocol G S L Op Reply} {m : Async L Op Reply α} {Q : G → L → α → Prop} {g : G}
    {l : L} (calm : Steady S plain I m) (inside : I l) (coherent : ∀ l, I l → P.coherent g l)
    (permitted : ∀ l o, I l → plain o → P.guard g l o)
    (idle : ∀ s l o r, plain o → P.next g s l o r = g) (done : ∀ l a, I l → Q g l a) :
    Async.wp P m Q g l := by
  refine Proc.wp_mono _ ?_ g (Proc.wp_of_steady coherent permitted idle (m l) (calm l inside))
  rintro g' l' a ⟨rfl, inside'⟩
  exact done l' a inside'

theorem keeps {P : Protocol G S L Op Reply} {J : G → L → Prop} {m : Async L Op Reply α}
    (calm : ∀ g, Steady S plain (J g) m) (coherent : ∀ g l, J g l → P.coherent g l)
    (permitted : ∀ g l o, J g l → plain o → P.guard g l o)
    (idle : ∀ g s l o r, plain o → P.next g s l o r = g) : Async.Keeps P J m := by
  intro g l here
  refine (calm g).wp here (coherent g) (permitted g) (idle g) ?_
  exact fun _ _ inside => inside

theorem coheres {P : Protocol G S L Op Reply} {m : Async L Op Reply α}
    (calm : ∀ g, Steady S plain (P.coherent g) m)
    (permitted : ∀ g l o, P.coherent g l → plain o → P.guard g l o)
    (idle : ∀ g s l o r, plain o → P.next g s l o r = g) : Async.Coheres P m :=
  keeps calm (fun _ _ here => here) permitted idle

end Async.Steady

end HadesPsTrader.Interaction
