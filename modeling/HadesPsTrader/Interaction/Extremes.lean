/- Module: HadesPsTrader/Interaction/Extremes
   layer: library
   digest: Folds that compute the greatest or the least of a list of values. -/

import Mathlib.Order.Bounds.Lattice
import Mathlib.Order.MinMax
import Mathlib.Tactic.Common

set_option autoImplicit false
set_option relaxedAutoImplicit false

namespace HadesPsTrader.Interaction

variable {α : Type} [LinearOrder α]

theorem foldl_max_le_iff (xs : List α) (seed b : α) :
    xs.foldl max seed ≤ b ↔ seed ≤ b ∧ ∀ x ∈ xs, x ≤ b := by
  induction xs generalizing seed with
  | nil => simp
  | cons x xs ih =>
    rw [List.foldl_cons, ih, max_le_iff, List.forall_mem_cons, and_assoc]

theorem le_foldl_min_iff (xs : List α) (seed b : α) :
    b ≤ xs.foldl min seed ↔ b ≤ seed ∧ ∀ x ∈ xs, b ≤ x := by
  induction xs generalizing seed with
  | nil => simp
  | cons x xs ih =>
    rw [List.foldl_cons, ih, le_min_iff, List.forall_mem_cons, and_assoc]

theorem foldl_max_eq {xs : List α} {greatest : α} (h : IsGreatest {x | x ∈ xs} greatest)
    (seed : α) : xs.foldl max seed = max seed greatest := by
  apply eq_of_forall_ge_iff
  intro b
  rw [foldl_max_le_iff, max_le_iff]
  apply and_congr_right
  intro _
  constructor
  · intro bound
    exact bound greatest h.1
  · intro bound x mem
    exact (h.2 mem).trans bound

theorem foldl_min_eq {xs : List α} {least : α} (h : IsLeast {x | x ∈ xs} least) (seed : α) :
    xs.foldl min seed = min seed least := by
  apply eq_of_forall_le_iff
  intro b
  rw [le_foldl_min_iff, le_min_iff]
  apply and_congr_right
  intro _
  constructor
  · intro bound
    exact bound least h.1
  · intro bound x mem
    exact bound.trans (h.2 mem)

theorem exists_extremes {xs : List α} (some : xs ≠ []) :
    (∃ greatest, IsGreatest {x | x ∈ xs} greatest) ∧ ∃ least, IsLeast {x | x ∈ xs} least := by
  induction xs with
  | nil => exact absurd rfl some
  | cons x xs ih =>
    have split : {y | y ∈ x :: xs} = insert x {y | y ∈ xs} := by
      ext y
      exact List.mem_cons
    rw [split]
    cases xs with
    | nil =>
      have single : insert x {y | y ∈ ([] : List α)} = {x} := by simp
      rw [single]
      exact ⟨⟨x, isGreatest_singleton⟩, ⟨x, isLeast_singleton⟩⟩
    | cons y ys =>
      obtain ⟨⟨greatest, hg⟩, least, hl⟩ := ih (List.cons_ne_nil y ys)
      exact ⟨⟨max x greatest, hg.insert x⟩, ⟨min x least, hl.insert x⟩⟩

/-- The least value so far, if any, is the least of the values seen. -/
def IsLeastOf (seen : Set α) (least : Option α) : Prop :=
  (least = none → seen = ∅) ∧ ∀ m ∈ least, IsLeast seen m

theorem isLeastOf_empty : IsLeastOf (∅ : Set α) none := ⟨fun _ => rfl, nofun⟩

theorem IsLeastOf.insert {seen : Set α} {least : Option α} (h : IsLeastOf seen least) (x : α) :
    IsLeastOf (Insert.insert x seen) (if least.all fun m => x < m then some x else least) := by
  cases least with
  | none =>
    rw [h.1 rfl]
    refine ⟨nofun, ?_⟩
    intro m mem
    cases mem
    simp
  | some m =>
    have inserted := (h.2 m rfl).insert x
    rw [Option.all_some]
    by_cases below : x < m
    · rw [if_pos (decide_eq_true below)]
      rw [min_eq_left below.le] at inserted
      refine ⟨nofun, ?_⟩
      intro y mem
      cases mem
      exact inserted
    · rw [if_neg (by rw [decide_eq_true_eq]; exact below)]
      rw [min_eq_right (not_lt.mp below)] at inserted
      refine ⟨nofun, ?_⟩
      intro y mem
      cases mem
      exact inserted

end HadesPsTrader.Interaction
