/- Module: HadesPsTrader/Interaction/Ranking
   layer: library
   digest: The sum of the greatest elements of a list, bounded through a threshold. -/

import Mathlib.Algebra.GroupWithZero.Nat
import Mathlib.Algebra.Order.BigOperators.Group.List
import Mathlib.Algebra.Order.Group.Nat
import Mathlib.Data.List.Sort
import HadesPsTrader.Interaction.Extremes

set_option autoImplicit false
set_option relaxedAutoImplicit false

namespace HadesPsTrader.Interaction

/-- `top` holds `n` greatest elements of `xs`, all of them if there are fewer, and `rest` the
others. -/
structure TopSplit (n : Nat) (xs top rest : List Nat) : Prop where
  perm : (top ++ rest).Perm xs
  length : top.length = min n xs.length
  greater : ∀ a ∈ top, ∀ b ∈ rest, b ≤ a

/-- The sum of the `n` greatest elements of `xs`. -/
def IsTopSum (n : Nat) (xs : List Nat) (s : Nat) : Prop :=
  ∃ top rest, TopSplit n xs top rest ∧ top.sum = s

/-- Sort in descending order, truncate, sum. -/
def topSum (n : Nat) (xs : List Nat) : Nat := ((xs.insertionSort (· ≥ ·)).take n).sum

/-- What the elements have above a threshold. -/
def excess (t : Nat) (xs : List Nat) : Nat := (xs.map (· - t)).sum

/-- What the elements have up to a threshold. -/
def capped (t : Nat) (xs : List Nat) : Nat := (xs.map (min · t)).sum

/-- At least `n` elements reach the threshold, unless it is zero, and at most `n` exceed it. -/
def Separates (n t : Nat) (xs : List Nat) : Prop :=
  (t = 0 ∨ n ≤ xs.countP (t ≤ ·)) ∧ xs.countP (t < ·) ≤ n

variable {n t : Nat} {xs ys top rest : List Nat}

theorem topSplit_sort (n : Nat) (xs : List Nat) :
    TopSplit n xs ((xs.insertionSort (· ≥ ·)).take n) ((xs.insertionSort (· ≥ ·)).drop n) where
  perm := by
    rw [List.take_append_drop]
    exact List.perm_insertionSort _ xs
  length := by rw [List.length_take, List.length_insertionSort]
  greater := by
    have sorted := List.pairwise_insertionSort (· ≥ ·) xs
    rw [← List.take_append_drop n (xs.insertionSort (· ≥ ·)), List.pairwise_append] at sorted
    exact sorted.2.2

theorem topSum_isTopSum (n : Nat) (xs : List Nat) : IsTopSum n xs (topSum n xs) :=
  ⟨_, _, topSplit_sort n xs, rfl⟩

theorem sum_eq_capped_add_excess (t : Nat) (xs : List Nat) :
    xs.sum = capped t xs + excess t xs := by
  induction xs with
  | nil => rfl
  | cons x xs ih =>
    have parts : x = min x t + (x - t) := by omega
    simp only [capped, excess, List.map_cons, List.sum_cons] at ih ⊢
    omega

theorem capped_le (t : Nat) (xs : List Nat) : capped t xs ≤ xs.length * t := by
  induction xs with
  | nil => exact Nat.zero_le _
  | cons x xs ih =>
    simp only [capped, List.map_cons, List.sum_cons, List.length_cons] at ih ⊢
    rw [Nat.add_mul, Nat.one_mul]
    omega

theorem capped_eq_iff (t : Nat) (xs : List Nat) :
    capped t xs = xs.length * t ↔ ∀ x ∈ xs, t ≤ x := by
  induction xs with
  | nil => simp [capped]
  | cons x xs ih =>
    have bound := capped_le t xs
    rw [List.forall_mem_cons, ← ih]
    simp only [capped, List.map_cons, List.sum_cons, List.length_cons] at bound ⊢
    rw [Nat.add_mul, Nat.one_mul]
    omega

theorem excess_append (t : Nat) (xs ys : List Nat) :
    excess t (xs ++ ys) = excess t xs + excess t ys := by
  rw [excess, List.map_append, List.sum_append, excess, excess]

theorem excess_eq_zero_iff (t : Nat) (xs : List Nat) : excess t xs = 0 ↔ ∀ x ∈ xs, x ≤ t := by
  induction xs with
  | nil => simp [excess]
  | cons x xs ih =>
    rw [List.forall_mem_cons, ← ih]
    simp only [excess, List.map_cons, List.sum_cons]
    omega

theorem excess_perm (perm : xs.Perm ys) : excess t xs = excess t ys :=
  (perm.map (· - t)).sum_eq

namespace TopSplit

theorem excess_eq (split : TopSplit n xs top rest) (t : Nat) :
    excess t xs = excess t top + excess t rest := by
  rw [← excess_append]
  exact (excess_perm split.perm).symm

theorem sum_le (split : TopSplit n xs top rest) (t : Nat) : top.sum ≤ n * t + excess t xs := by
  have parts := sum_eq_capped_add_excess t top
  have bound := capped_le t top
  have short : top.length * t ≤ n * t := by
    apply Nat.mul_le_mul_right
    rw [split.length]
    exact min_le_left _ _
  have others := split.excess_eq t
  omega

theorem countP_eq (split : TopSplit n xs top rest) (p : Nat → Bool) :
    xs.countP p = top.countP p + rest.countP p := by
  rw [← split.perm.countP_eq, List.countP_append]

theorem length_le (split : TopSplit n xs top rest) : top.length ≤ n := by
  rw [split.length]
  exact min_le_left _ _

theorem length_eq (split : TopSplit n xs top rest) (others : rest ≠ []) : top.length = n := by
  have total := split.perm.length_eq
  rw [List.length_append] at total
  have some := List.length_pos_of_ne_nil others
  have least := split.length
  omega

theorem rest_le (split : TopSplit n xs top rest) (few : xs.countP (t < ·) ≤ n) :
    ∀ b ∈ rest, b ≤ t := by
  intro b mem
  by_contra high
  have exceed := split.countP_eq (t < ·)
  have length := split.length_eq (List.ne_nil_of_mem mem)
  -- an element of the rest above the threshold has all of `top` above it
  have topExceed : top.countP (t < ·) = top.length :=
    List.countP_eq_length.mpr fun a a_mem =>
      decide_eq_true (lt_of_lt_of_le (not_le.mp high) (split.greater a a_mem b mem))
  have one : 0 < rest.countP (t < ·) :=
    List.countP_pos_iff.mpr ⟨b, mem, decide_eq_true (not_le.mp high)⟩
  omega

theorem le_top (split : TopSplit n xs top rest) (many : n ≤ xs.countP (t ≤ ·)) :
    ∀ a ∈ top, t ≤ a := by
  intro a mem
  by_contra below
  have reach := split.countP_eq (t ≤ ·)
  have restReach : rest.countP (t ≤ ·) = 0 :=
    List.countP_eq_zero.mpr fun b b_mem => by
      have := split.greater a mem b b_mem
      simp only [decide_eq_true_eq]
      omega
  have missing : top.countP (t ≤ ·) ≠ top.length := by
    intro full
    exact below (of_decide_eq_true (List.countP_eq_length.mp full a mem))
  have := top.countP_le_length (p := (t ≤ ·))
  have := split.length_le
  omega

theorem length_eq_of_reached (split : TopSplit n xs top rest) (many : n ≤ xs.countP (t ≤ ·)) :
    top.length = n := by
  have reach := split.countP_eq (t ≤ ·)
  have := top.countP_le_length (p := (t ≤ ·))
  have := split.length_le
  by_cases others : rest = []
  · rw [others, List.countP_nil] at reach
    omega
  · exact split.length_eq others

theorem separates_of_sum (split : TopSplit n xs top rest)
    (equal : top.sum = n * t + excess t xs) : Separates n t xs := by
  have parts := sum_eq_capped_add_excess t top
  have cap := capped_le t top
  have short : top.length * t ≤ n * t := Nat.mul_le_mul_right t split.length_le
  have sum := split.excess_eq t
  have reach := split.countP_eq (t ≤ ·)
  have exceed := split.countP_eq (t < ·)
  have full : capped t top = top.length * t := by omega
  have all := (capped_eq_iff t top).mp full
  have low := (excess_eq_zero_iff t rest).mp (by omega)
  have topReach : top.countP (t ≤ ·) = top.length :=
    List.countP_eq_length.mpr fun a mem => decide_eq_true (all a mem)
  have restExceed : rest.countP (t < ·) = 0 :=
    List.countP_eq_zero.mpr fun b mem => by simpa using low b mem
  refine ⟨?_, ?_⟩
  · rcases Nat.eq_zero_or_pos t with zero | positive
    · exact Or.inl zero
    · right
      have many : n * t ≤ top.length * t := by omega
      have := Nat.le_of_mul_le_mul_right many positive
      omega
  · have := top.countP_le_length (p := (t < ·))
    have := split.length_le
    omega

theorem sum_of_separates (split : TopSplit n xs top rest) (separates : Separates n t xs) :
    top.sum = n * t + excess t xs := by
  have parts := sum_eq_capped_add_excess t top
  have sum := split.excess_eq t
  have none := (excess_eq_zero_iff t rest).mpr (split.rest_le separates.2)
  rcases separates.1 with rfl | many
  · have cap := capped_le 0 top
    rw [Nat.mul_zero] at cap
    omega
  · have full := (capped_eq_iff t top).mpr (split.le_top many)
    rw [split.length_eq_of_reached many] at full
    omega

theorem sum_eq_iff (split : TopSplit n xs top rest) (t : Nat) :
    top.sum = n * t + excess t xs ↔ Separates n t xs :=
  ⟨split.separates_of_sum, split.sum_of_separates⟩

theorem separates_least (split : TopSplit n xs top rest) (some : 0 < n) (enough : n ≤ xs.length) :
    ∃ t, n ≤ xs.countP (t ≤ ·) ∧ xs.countP (t < ·) < n := by
  have length : top.length = n := split.length.trans (min_eq_left enough)
  have nonempty : top ≠ [] := List.ne_nil_of_length_pos (by omega)
  obtain ⟨t, mem, least⟩ := (exists_extremes nonempty).2
  have reach := split.countP_eq (t ≤ ·)
  have exceed := split.countP_eq (t < ·)
  have topReach : top.countP (t ≤ ·) = top.length :=
    List.countP_eq_length.mpr fun a a_mem => decide_eq_true (least a_mem)
  have restExceed : rest.countP (t < ·) = 0 :=
    List.countP_eq_zero.mpr fun b b_mem => by simpa using split.greater t mem b b_mem
  have topExceed : top.countP (t < ·) ≠ top.length := by
    intro full
    exact lt_irrefl t (of_decide_eq_true (List.countP_eq_length.mp full t mem))
  have := top.countP_le_length (p := (t < ·))
  exact ⟨t, by omega, by omega⟩

end TopSplit

theorem exists_separates (n : Nat) (xs : List Nat) : ∃ t, Separates n t xs := by
  rcases Nat.lt_or_ge xs.length n with short | enough
  · refine ⟨0, Or.inl rfl, ?_⟩
    exact List.countP_le_length.trans short.le
  · rcases Nat.eq_zero_or_pos n with rfl | some
    · refine ⟨xs.sum, Or.inr (Nat.zero_le _), ?_⟩
      apply le_of_eq
      apply List.countP_eq_zero.mpr
      intro x mem
      simpa using List.le_sum_of_mem mem
    · obtain ⟨t, reach, exceed⟩ := (topSplit_sort n xs).separates_least some enough
      exact ⟨t, Or.inr reach, exceed.le⟩

theorem topSum_le (n t : Nat) (xs : List Nat) : topSum n xs ≤ n * t + excess t xs :=
  (topSplit_sort n xs).sum_le t

theorem topSum_eq_iff : topSum n xs = n * t + excess t xs ↔ Separates n t xs :=
  (topSplit_sort n xs).sum_eq_iff t

theorem isTopSum_iff {s : Nat} : IsTopSum n xs s ↔ s = topSum n xs := by
  constructor
  · rintro ⟨top, rest, split, rfl⟩
    obtain ⟨t, separates⟩ := exists_separates n xs
    rw [topSum_eq_iff.mpr separates]
    exact (split.sum_eq_iff t).mpr separates
  · rintro rfl
    exact topSum_isTopSum n xs

theorem topSum_mono (more : ∀ t, excess t xs ≤ excess t ys) : topSum n xs ≤ topSum n ys := by
  obtain ⟨t, separates⟩ := exists_separates n ys
  calc topSum n xs ≤ n * t + excess t xs := topSum_le n t xs
    _ ≤ n * t + excess t ys := Nat.add_le_add_left (more t) _
    _ = topSum n ys := (topSum_eq_iff.mpr separates).symm

theorem excess_zero (xs : List Nat) : excess 0 xs = xs.sum := by
  rw [excess]
  congr 1
  exact List.map_id' xs

end HadesPsTrader.Interaction
