/- Module: HadesPsTrader/Interaction/Faults
   layer: library
   digest: Computations that may panic or fail: their rules, and the partial operations on lists. -/

import Mathlib.Algebra.GroupWithZero.Nat
import Mathlib.Tactic.Common

set_option autoImplicit false
set_option relaxedAutoImplicit false

namespace HadesPsTrader.Interaction

/-- How a computation ends without a result. -/
inductive Fault (ε : Type)
  | panicked
  | failed (e : ε)
  deriving DecidableEq

section Contracts

variable {ε α β : Type}

/-- The computation does not panic, a result it returns satisfies `post`, and an error it returns
satisfies `fail`. -/
structure Meets (x : Except (Fault ε) α) (post : α → Prop) (fail : ε → Prop) : Prop where
  calm : x ≠ .error .panicked
  returns : ∀ a, x = .ok a → post a
  fails : ∀ e, x = .error (.failed e) → fail e

variable {post : α → Prop} {fail : ε → Prop}

theorem meets_ok {a : α} (here : post a) : Meets (.ok a : Except (Fault ε) α) post fail := by
  refine ⟨nofun, ?_, nofun⟩
  intro b same
  cases same
  exact here

theorem meets_failed {e : ε} (here : fail e) :
    Meets (.error (.failed e) : Except (Fault ε) α) post fail := by
  refine ⟨nofun, nofun, ?_⟩
  intro b same
  cases same
  exact here

theorem Meets.mono {x : Except (Fault ε) α} {weaker : α → Prop} (h : Meets x post fail)
    (weaken : ∀ a, post a → weaker a) : Meets x weaker fail where
  calm := h.calm
  returns := fun a same => weaken a (h.returns a same)
  fails := h.fails

theorem Meets.bind {x : Except (Fault ε) α} {f : α → Except (Fault ε) β} {mid : α → Prop}
    {post : β → Prop} (first : Meets x mid fail) (next : ∀ a, mid a → Meets (f a) post fail) :
    Meets (x >>= f) post fail := by
  cases x with
  | ok a => exact next a (first.returns a rfl)
  | error fault =>
    cases fault with
    | panicked => exact absurd rfl first.calm
    | failed e => exact meets_failed (first.fails e rfl)

theorem ok_bind (a : α) (f : α → Except (Fault ε) β) : (Except.ok a >>= f) = f a := rfl

theorem Meets.never {x : Except (Fault ε) α} (h : Meets x post fail) (never : ∀ a, ¬ post a) :
    ∃ e, x = .error (.failed e) := by
  cases x with
  | ok a => exact absurd (h.returns a rfl) (never a)
  | error fault =>
    cases fault with
    | panicked => exact absurd rfl h.calm
    | failed e => exact ⟨e, rfl⟩

theorem Meets.always {x : Except (Fault ε) α} (h : Meets x post fail) (never : ∀ e, ¬ fail e) :
    ∃ a, x = .ok a ∧ post a := by
  cases x with
  | ok a => exact ⟨a, rfl, h.returns a rfl⟩
  | error fault =>
    cases fault with
    | panicked => exact absurd rfl h.calm
    | failed e => exact absurd (h.fails e rfl) (never e)

theorem exists_ok {x : Except (Fault ε) α} (some : x.toOption.isSome) : ∃ a, x = .ok a := by
  cases x with
  | ok a => exact ⟨a, rfl⟩
  | error fault => cases some

def unwrap : Option α → Except (Fault ε) α
  | some a => .ok a
  | none => .error .panicked

def okOr (e : ε) : Option α → Except (Fault ε) α
  | some a => .ok a
  | none => .error (.failed e)

/-- The result of a call, its error put under `wrap`. -/
def mapErr {δ : Type} (wrap : δ → ε) : Except δ α → Except (Fault ε) α
  | .ok a => .ok a
  | .error e => .error (.failed (wrap e))

/-- A `match` on the result of a call: an error becomes a value, a panic goes on. -/
def caught {δ : Type} : Except (Fault ε) α → Except (Fault δ) (Except ε α)
  | .ok a => .ok (.ok a)
  | .error (.failed e) => .ok (.error e)
  | .error .panicked => .error .panicked

theorem Meets.caught {δ : Type} {x : Except (Fault ε) α} (h : Meets x post fail) :
    (∃ a, x = .ok a ∧ post a ∧ caught x = (.ok (.ok a) : Except (Fault δ) (Except ε α))) ∨
      ∃ e, x = .error (.failed e) ∧ fail e ∧
        caught x = (.ok (.error e) : Except (Fault δ) (Except ε α)) := by
  cases x with
  | ok a => exact .inl ⟨a, rfl, h.returns a rfl, rfl⟩
  | error fault =>
    cases fault with
    | panicked => exact absurd rfl h.calm
    | failed e => exact .inr ⟨e, rfl, h.fails e rfl, rfl⟩

theorem meets_okOr {e : ε} {o : Option α} (present : ∀ a, o = some a → post a)
    (absent : o = none → fail e) : Meets (okOr e o) post fail := by
  cases o with
  | none => exact meets_failed (absent rfl)
  | some a => exact meets_ok (present a rfl)

theorem meets_mapErr {δ : Type} {wrap : δ → ε} {x : Except δ α}
    (returned : ∀ a, x = .ok a → post a) (refused : ∀ e, x = .error e → fail (wrap e)) :
    Meets (mapErr wrap x) post fail := by
  cases x with
  | error e => exact meets_failed (refused e rfl)
  | ok a => exact meets_ok (returned a rfl)

end Contracts

section Sums

variable {ε : Type}

/-- A sum in an unsigned type that holds the numbers below `bound`. -/
def addWithin (bound a b : Nat) : Except (Fault ε) Nat :=
  if a + b < bound then .ok (a + b) else .error .panicked

def mulWithin (bound a b : Nat) : Except (Fault ε) Nat :=
  if a * b < bound then .ok (a * b) else .error .panicked

def divide (a b : Nat) : Except (Fault ε) Nat :=
  if b = 0 then .error .panicked else .ok (a / b)

theorem foldlM_addWithin {bound : Nat} (xs : List Nat) (seed : Nat) (fits : seed + xs.sum < bound) :
    xs.foldlM (addWithin bound) seed = (.ok (seed + xs.sum) : Except (Fault ε) Nat) := by
  induction xs generalizing seed with
  | nil => rfl
  | cons x xs ih =>
    rw [List.sum_cons] at fits
    have step : addWithin bound seed x = (.ok (seed + x) : Except (Fault ε) Nat) :=
      if_pos (by omega)
    rw [List.foldlM_cons, step, ok_bind, ih (seed + x) (by omega), List.sum_cons, Nat.add_assoc]

end Sums

section Lists

variable {ε α : Type}

def index (xs : List α) (i : Nat) : Except (Fault ε) α := unwrap xs[i]?

def slice (xs : List α) (start stop : Nat) : Except (Fault ε) (List α) :=
  if start ≤ stop ∧ stop ≤ xs.length then .ok ((xs.drop start).take (stop - start))
  else .error .panicked

theorem index_eq_ok {xs : List α} {i : Nat} {x : α} (at_i : xs[i]? = some x) :
    index xs i = (.ok x : Except (Fault ε) α) := by
  rw [index, at_i, unwrap]

theorem slice_eq_ok {xs : List α} {start stop : Nat} (ordered : start ≤ stop)
    (within : stop ≤ xs.length) :
    slice xs start stop = (.ok ((xs.drop start).take (stop - start)) : Except (Fault ε) _) :=
  if_pos ⟨ordered, within⟩

theorem slice_append (front part rest : List α) {start stop : Nat} (starts : front.length = start)
    (stops : start + part.length = stop) :
    slice (front ++ part ++ rest) start stop = (.ok part : Except (Fault ε) _) := by
  have within : stop ≤ (front ++ part ++ rest).length := by
    simp only [List.length_append]
    omega
  have width : stop - start = part.length := by omega
  rw [slice_eq_ok (by omega) within, width, List.append_assoc, ← starts, List.drop_left,
    List.take_left]

theorem mapM_ok {β : Type} {f : α → Except (Fault ε) β} {g : α → β} {xs : List α}
    (each : ∀ x ∈ xs, f x = .ok (g x)) : xs.mapM f = .ok (xs.map g) := by
  induction xs with
  | nil => rfl
  | cons x xs ih =>
    have rest := ih fun y mem => each y (List.mem_cons_of_mem x mem)
    rw [List.mapM_cons, each x List.mem_cons_self, ok_bind, rest, ok_bind]
    rfl

end Lists

end HadesPsTrader.Interaction
