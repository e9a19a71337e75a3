/- Module: HadesPsTrader/Interaction/Tally
   layer: library
   digest: Counting the tasks with a property, and how the count moves when one task moves. -/

import Mathlib.Algebra.Order.BigOperators.Group.Finset
import Mathlib.Tactic.Common

set_option autoImplicit false
set_option relaxedAutoImplicit false

namespace HadesPsTrader.Interaction

/-- The number of indices below `n` with a property. -/
def tally (n : Nat) (p : Nat → Prop) [DecidablePred p] : Nat :=
  ((Finset.range n).filter p).card

variable {n : Nat} {p q : Nat → Prop} [DecidablePred p] [DecidablePred q]

theorem tally_congr (same : ∀ i < n, p i ↔ q i) : tally n p = tally n q := by
  unfold tally
  congr 1
  exact Finset.filter_congr fun i hi => same i (Finset.mem_range.mp hi)

theorem tally_mono (le : ∀ i < n, p i → q i) : tally n p ≤ tally n q := by
  refine Finset.card_le_card ?_
  intro i hi
  simp only [Finset.mem_filter, Finset.mem_range] at hi ⊢
  exact ⟨hi.1, le i hi.1 hi.2⟩

theorem tally_pos {i : Nat} (lt : i < n) (here : p i) : 0 < tally n p :=
  Finset.card_pos.mpr ⟨i, by simp [lt, here]⟩

theorem tally_grow {m : Nat} (le : n ≤ m) (new : ∀ i, n ≤ i → i < m → ¬ p i) :
    tally m p = tally n p := by
  unfold tally
  congr 1
  ext i
  simp only [Finset.mem_filter, Finset.mem_range, and_congr_left_iff]
  intro here
  refine ⟨fun lt => ?_, fun lt => lt.trans_le le⟩
  by_contra ge
  exact new i (not_lt.mp ge) lt here

theorem tally_gain {i : Nat} (lt : i < n) (off : ¬ p i) (on : q i)
    (others : ∀ j, j ≠ i → (p j ↔ q j)) : tally n q = tally n p + 1 := by
  have : (Finset.range n).filter q = insert i ((Finset.range n).filter p) := by
    ext j
    simp only [Finset.mem_filter, Finset.mem_range, Finset.mem_insert]
    rcases eq_or_ne j i with rfl | ne
    · simp [lt, on]
    · simp [ne, others j ne]
  rw [tally, this, Finset.card_insert_of_notMem (by simp [off]), tally]

theorem tally_lose {i : Nat} (lt : i < n) (on : p i) (off : ¬ q i)
    (others : ∀ j, j ≠ i → (p j ↔ q j)) : tally n p = tally n q + 1 :=
  tally_gain lt off on fun j ne => (others j ne).symm

private theorem tally_succ : tally (n + 1) p = tally n p + if p n then 1 else 0 := by
  unfold tally
  rw [Finset.range_add_one, Finset.filter_insert]
  split_ifs with here
  · rw [Finset.card_insert_of_notMem (by simp)]
  · rfl

theorem countP_eq_tally {α : Type*} (f : α → Bool) (xs : List α) :
    xs.countP f = tally xs.length (fun i => xs[i]?.any f = true) := by
  induction xs using List.reverseRecOn with
  | nil => rfl
  | append_singleton xs x ih =>
      rw [List.countP_append, List.length_append, List.length_singleton, tally_succ, ih]
      congr 1
      · exact tally_congr fun i hi => by rw [List.getElem?_append_left hi]
      · cases h : f x <;> simp [h]

end HadesPsTrader.Interaction
