/- Module: HadesPsTrader/Interaction/Reservations
   layer: library
   digest: A shared counter on which processes reserve and release places, in any interleaving. -/

import HadesPsTrader.Interaction.System
import HadesPsTrader.Interaction.Tally

set_option autoImplicit false
set_option relaxedAutoImplicit false

namespace HadesPsTrader.Interaction

variable {G S L Op Env : Type} {Reply : Op → Type}

/-- How a counter is used: the operations that reserve and release, which ghosts hold a place, and
which of them a limit on the counter let through. -/
structure Booking (G S Op : Type) where
  reserves : Op → Bool
  releases : Op → Bool
  holds : G → Bool
  admitted : G → Bool
  count : S → Int
  limit : Nat
  held : ∀ g, admitted g = true → holds g = true

namespace Booking

variable (b : Booking G S Op)

/-- What one operation does to the place of its process and to the counter. -/
inductive Moves (o : Op) (g g' : G) (s s' : S) : Prop
  | reserve (reserves : b.reserves o = true) (releases : b.releases o = false)
      (before : b.holds g = false) (after : b.holds g' = true)
      (room : b.admitted g' = true → b.count s < b.limit) (counted : b.count s' = b.count s + 1)
  | release (reserves : b.reserves o = false) (releases : b.releases o = true)
      (before : b.holds g = true) (after : b.holds g' = false)
      (counted : b.count s' = b.count s - 1)
  | neither (reserves : b.reserves o = false) (releases : b.releases o = false)
      (kept : b.holds g' = b.holds g) (same : b.admitted g' = b.admitted g)
      (counted : b.count s' = b.count s)

/-- The runs of a system use the counter as booked. -/
structure Kept (M : System S L Op Reply Env) (P : Protocol G S L Op Reply) (g₀ : G)
    (admits : Trace S L Op Reply Env → Config S L Op Reply → Label L Op Reply Env → Prop)
    (c₀ : Config S L Op Reply) : Prop where
  unspawned : c₀.tasks = []
  zero : b.count c₀.shared = 0
  fresh : b.holds g₀ = false
  step : ∀ {tr c}, Run M admits c₀ tr c →
    ∀ {i l o r s'} {resume : Reply o → Proc L Op Reply Unit},
    c.tasks[i]? = some (.op l o resume) → M.exec c.shared i l o r = some s' →
    b.Moves o (ghost P g₀ i tr) (P.next (ghost P g₀ i tr) c.shared l o r) c.shared s'
  env : ∀ {s e s' ts}, M.env s e = some (s', ts) → b.count s' = b.count s

variable {b} {M : System S L Op Reply Env} {P : Protocol G S L Op Reply} {g₀ : G}
  {admits : Trace S L Op Reply Env → Config S L Op Reply → Label L Op Reply Env → Prop}
  {c₀ c : Config S L Op Reply} {tr : Trace S L Op Reply Env}

namespace Kept

variable (h : b.Kept M P g₀ admits c₀)

include h

theorem fresh_admitted : b.admitted g₀ = false := by
  rw [← Bool.not_eq_true]
  intro admitted
  have held := b.held g₀ admitted
  rw [h.fresh] at held
  cases held

theorem counter_eq (run : Run M admits c₀ tr c) :
    b.count c.shared = tally c.tasks.length fun i => b.holds (ghost P g₀ i tr) = true := by
  apply run.invariant (fun tr c =>
    b.count c.shared = tally c.tasks.length fun i => b.holds (ghost P g₀ i tr) = true)
  · rw [h.unspawned, h.zero]
    rfl
  intro tr c e c' before counted _ moved
  cases moved with
  | @perform i l o resume r s' pending granted =>
    have spawned : i < c.tasks.length := (List.getElem?_eq_some_iff.mp pending).1
    have others (j : Nat) (other : j ≠ i) : b.holds (ghost P g₀ j tr) = true ↔
        b.holds (ghost P g₀ j (tr ++ [(c.shared, .perform i l o r)])) = true := by
      rw [ghost_perform_other (Ne.symm other)]
    simp only [List.length_set]
    cases h.step before pending granted with
    | reserve reserves releases free held room count =>
      rw [tally_gain spawned (by simp [free]) (by rw [ghost_perform_self]; exact held) others,
        count, counted]
      rfl
    | release reserves releases held free count =>
      rw [tally_lose spawned held (by rw [ghost_perform_self]; simp [free]) others] at counted
      rw [count, counted]
      simp
    | neither reserves releases kept same count =>
      rw [count, counted]
      congr 1
      apply tally_congr
      intro j _
      rcases eq_or_ne j i with rfl | other
      · rw [ghost_perform_self, kept]
      · exact others j other
  | unroll pending => simpa only [ghost_unroll, List.length_set] using counted
  | env granted =>
    simp only [ghost_env, List.length_append]
    rw [h.env granted, counted, tally_grow (Nat.le_add_right _ _)]
    intro i new _
    rw [Run.ghost_unspawned P g₀ before i new]
    simp [h.fresh]

theorem one_le (run : Run M admits c₀ tr c) {i : Nat} (spawned : i < c.tasks.length)
    (held : b.holds (ghost P g₀ i tr) = true) : 1 ≤ b.count c.shared := by
  have counted := h.counter_eq run
  have positive : 0 < tally c.tasks.length fun i => b.holds (ghost P g₀ i tr) = true :=
    tally_pos spawned held
  omega

theorem admitted_le (run : Run M admits c₀ tr c) :
    (tally c.tasks.length fun i => b.admitted (ghost P g₀ i tr) = true) ≤ b.limit := by
  apply run.invariant (fun tr c =>
    (tally c.tasks.length fun i => b.admitted (ghost P g₀ i tr) = true) ≤ b.limit)
  · rw [h.unspawned]
    exact Nat.zero_le _
  intro tr c e c' before bounded _ moved
  cases moved with
  | @perform i l o resume r s' pending granted =>
    have spawned : i < c.tasks.length := (List.getElem?_eq_some_iff.mp pending).1
    have others (j : Nat) (other : j ≠ i) : b.admitted (ghost P g₀ j tr) = true ↔
        b.admitted (ghost P g₀ j (tr ++ [(c.shared, .perform i l o r)])) = true := by
      rw [ghost_perform_other (Ne.symm other)]
    simp only [List.length_set]
    -- a step after which process `i` is no more admitted than before
    have no_more (less : b.admitted (P.next (ghost P g₀ i tr) c.shared l o r) = true →
        b.admitted (ghost P g₀ i tr) = true) :
        (tally c.tasks.length fun j => b.admitted
          (ghost P g₀ j (tr ++ [(c.shared, .perform i l o r)])) = true) ≤ b.limit := by
      refine le_trans (tally_mono ?_) bounded
      intro j _ here
      rcases eq_or_ne j i with rfl | other
      · rw [ghost_perform_self] at here
        exact less here
      · exact (others j other).mpr here
    cases h.step before pending granted with
    | reserve reserves releases free held room count =>
      by_cases admitted : b.admitted (P.next (ghost P g₀ i tr) c.shared l o r) = true
      · have off : ¬ b.admitted (ghost P g₀ i tr) = true := by
          intro here
          rw [b.held _ here] at free
          cases free
        rw [tally_gain spawned off (by rw [ghost_perform_self]; exact admitted) others]
        have counted := h.counter_eq before
        have le : (tally c.tasks.length fun j => b.admitted (ghost P g₀ j tr) = true) ≤
            tally c.tasks.length fun j => b.holds (ghost P g₀ j tr) = true := by
          apply tally_mono
          intro j _ here
          exact b.held _ here
        have below := room admitted
        omega
      · exact no_more fun here => absurd here admitted
    | release reserves releases held free count =>
      apply no_more
      intro here
      rw [b.held _ here] at free
      cases free
    | neither reserves releases kept same count =>
      apply no_more
      intro here
      rw [same] at here
      exact here
  | unroll pending => simpa only [ghost_unroll, List.length_set] using bounded
  | env granted =>
    simp only [ghost_env, List.length_append]
    rw [tally_grow (Nat.le_add_right _ _)]
    · exact bounded
    · intro i new _
      rw [Run.ghost_unspawned P g₀ before i new]
      simp [h.fresh_admitted]

theorem paired (run : Run M admits c₀ tr c) (i : Nat) : performed i b.reserves tr =
    performed i b.releases tr + if b.holds (ghost P g₀ i tr) then 1 else 0 := by
  apply run.invariant (fun tr _ => performed i b.reserves tr =
    performed i b.releases tr + if b.holds (ghost P g₀ i tr) then 1 else 0)
  · rw [ghost_nil, h.fresh]
    rfl
  intro tr c e c' before paired _ moved
  cases moved with
  | @perform j l o resume r s' pending granted =>
    rcases eq_or_ne j i with rfl | other
    · rw [performed_self, performed_self, ghost_perform_self, paired]
      cases h.step before pending granted with
      | reserve reserves releases free held room count =>
        simp [reserves, releases, free, held]
      | release reserves releases held free count =>
        simp [reserves, releases, free, held]
      | neither reserves releases kept same count =>
        simp [reserves, releases, kept]
    · rw [performed_other other, performed_other other, ghost_perform_other other, paired]
  | unroll pending => rw [performed_unroll, performed_unroll, ghost_unroll, paired]
  | env granted => rw [performed_env, performed_env, ghost_env, paired]

end Kept

end Booking

end HadesPsTrader.Interaction
