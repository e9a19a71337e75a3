/- Module: HadesPsTrader/Interaction/Selection
   layer: library
   digest: The last of the greatest elements within a bound, found from the end of a stable sort. -/

import Mathlib.Data.List.Sort
import Mathlib.Order.Lattice

set_option autoImplicit false
set_option relaxedAutoImplicit false

namespace HadesPsTrader.Interaction

variable {α κ : Type} [LinearOrder κ] (key : α → κ) (bound : κ)

/-- Of the elements whose key is within the bound, `x` is one with the greatest key, and stands last
among these. -/
def LastGreatest (xs : List α) (x : α) : Prop :=
  ∃ before after, xs = before ++ x :: after ∧ key x ≤ bound ∧
    (∀ y ∈ before, key y ≤ bound → key y ≤ key x) ∧ ∀ y ∈ after, key y ≤ bound → key y < key x

/-- The last element within the bound. -/
def lastWithin (xs : List α) : Option α := xs.reverse.find? fun x => key x ≤ bound

variable {key bound} {x y z : α} {xs : List α}

theorem LastGreatest.mem (h : LastGreatest key bound xs x) : x ∈ xs := by
  obtain ⟨before, after, rfl, _⟩ := h
  exact List.mem_append_right _ List.mem_cons_self

theorem LastGreatest.within (h : LastGreatest key bound xs x) : key x ≤ bound := by
  obtain ⟨_, _, _, within, _⟩ := h
  exact within

theorem LastGreatest.greatest (h : LastGreatest key bound xs x) (mem : y ∈ xs)
    (within : key y ≤ bound) : key y ≤ key x := by
  obtain ⟨before, after, rfl, _, earlier, later⟩ := h
  rcases List.mem_append.mp mem with old | new
  · exact earlier y old within
  · rcases List.mem_cons.mp new with rfl | rest
    · exact le_rfl
    · exact (later y rest within).le

theorem lastGreatest_cons : LastGreatest key bound (x :: xs) z ↔
    (LastGreatest key bound xs z ∧ (key x ≤ bound → key x ≤ key z)) ∨
      (z = x ∧ key x ≤ bound ∧ ∀ y ∈ xs, key y ≤ bound → key y < key x) := by
  constructor
  · rintro ⟨before, after, split, within, earlier, later⟩
    cases before with
    | nil =>
        cases split
        exact .inr ⟨rfl, within, later⟩
    | cons b before =>
        cases split
        refine .inl ⟨⟨before, after, rfl, within, ?_, later⟩, ?_⟩
        · exact fun y mem => earlier y (List.mem_cons_of_mem _ mem)
        · exact earlier _ List.mem_cons_self
  · rintro (⟨⟨before, after, rfl, within, earlier, later⟩, first⟩ | ⟨rfl, within, later⟩)
    · refine ⟨x :: before, after, rfl, within, ?_, later⟩
      intro y mem
      rcases List.mem_cons.mp mem with rfl | old
      · exact first
      · exact earlier y old
    · exact ⟨[], xs, rfl, within, nofun, later⟩

theorem lastWithin_cons : lastWithin key bound (x :: xs) =
    (lastWithin key bound xs).or (if key x ≤ bound then some x else none) := by
  rw [lastWithin, List.reverse_cons, List.find?_append, lastWithin]
  congr 1
  by_cases within : key x ≤ bound
  · simp [within]
  · simp [within]

theorem mem_of_lastWithin (h : lastWithin key bound xs = some x) : x ∈ xs :=
  List.mem_reverse.mp (List.mem_of_find?_eq_some h)

theorem lastWithin_orderedInsert (sorted : xs.Pairwise fun a b => key a ≤ key b) :
    lastWithin key bound (xs.orderedInsert (fun a b => key a ≤ key b) x) =
      match lastWithin key bound xs with
      | none => if key x ≤ bound then some x else none
      | some y => if key x ≤ bound ∧ key y < key x then some x else some y := by
  induction xs with
  | nil =>
      rw [List.orderedInsert_nil, lastWithin_cons]
      rfl
  | cons b xs ih =>
      obtain ⟨least, rest⟩ := List.pairwise_cons.mp sorted
      by_cases before : key x ≤ key b
      · rw [List.orderedInsert_cons, if_pos before, lastWithin_cons]
        cases found : lastWithin key bound (b :: xs) with
        | none => rfl
        | some y =>
            -- everything in the sorted list is at least the new element
            have above : key x ≤ key y := by
              rcases List.mem_cons.mp (mem_of_lastWithin found) with rfl | later
              · exact before
              · exact before.trans (least y later)
            exact (if_neg fun h => absurd h.2 (not_lt.mpr above)).symm
      · have after : key b < key x := not_le.mp before
        rw [List.orderedInsert_cons, if_neg before, lastWithin_cons, ih rest, lastWithin_cons]
        cases lastWithin key bound xs with
        | none =>
            by_cases reached : key b ≤ bound
            · by_cases within : key x ≤ bound
              · simp [reached, within, after]
              · simp [reached, within]
            · simp [reached]
        | some y =>
            simp only [Option.some_or]
            split_ifs <;> rfl

theorem lastWithin_eq_none : lastWithin key bound xs = none ↔ ∀ y ∈ xs, bound < key y := by
  simp [lastWithin]

theorem lastWithin_insertionSort :
    lastWithin key bound (xs.insertionSort fun a b => key a ≤ key b) = some z ↔
      LastGreatest key bound xs z := by
  induction xs generalizing z with
  | nil =>
      refine iff_of_false nofun ?_
      rintro ⟨before, after, split, _⟩
      simp at split
  | cons x xs ih =>
      have sorted : (xs.insertionSort fun a b => key a ≤ key b).Pairwise
          fun a b => key a ≤ key b := List.pairwise_insertionSort _ xs
      rw [List.insertionSort_cons, lastWithin_orderedInsert sorted, lastGreatest_cons]
      cases found : lastWithin key bound (xs.insertionSort fun a b => key a ≤ key b) with
      | none =>
          have beyond (y : α) (mem : y ∈ xs) : ¬ key y ≤ bound :=
            not_le.mpr (lastWithin_eq_none.mp found y ((List.mem_insertionSort _).mpr mem))
          show (if key x ≤ bound then some x else none) = some z ↔ _
          rw [or_iff_right fun h => beyond z h.1.mem h.1.within]
          split_ifs with within
          · constructor
            · intro same
              cases same
              exact ⟨rfl, within, fun y mem reached => absurd reached (beyond y mem)⟩
            · rintro ⟨rfl, _⟩
              rfl
          · exact iff_of_false nofun fun h => within h.2.1
      | some y =>
          have last := ih.mp found
          show (if key x ≤ bound ∧ key y < key x then some x else some y) = some z ↔ _
          split_ifs with beats
          · constructor
            · intro same
              cases same
              refine .inr ⟨rfl, beats.1, ?_⟩
              exact fun y' mem reached => (last.greatest mem reached).trans_lt beats.2
            · rintro (⟨other, first⟩ | ⟨rfl, _⟩)
              · cases found.symm.trans (ih.mpr other)
                exact absurd (first beats.1) (not_le.mpr beats.2)
              · rfl
          · constructor
            · intro same
              cases same
              exact .inl ⟨last, fun within => not_lt.mp fun less => beats ⟨within, less⟩⟩
            · rintro (⟨other, _⟩ | ⟨rfl, within, above⟩)
              · exact found.symm.trans (ih.mpr other)
              · exact absurd ⟨within, above y last.mem last.within⟩ beats

end HadesPsTrader.Interaction
