/- Module: HadesPsTrader/Interaction/Holdings
   layer: library
   digest: Amounts under keys: ranking the amounts against ranking the totals of the keys. -/

import Mathlib.Algebra.BigOperators.Group.Finset.Piecewise
import Mathlib.Algebra.Order.BigOperators.Group.Finset
import HadesPsTrader.Interaction.Ranking

set_option autoImplicit false
set_option relaxedAutoImplicit false

namespace HadesPsTrader.Interaction

open Finset

section Parts

variable {n t : Nat} {ys : List Nat}

theorem countP_pos_eq_zero_iff (ys : List Nat) : ys.countP (0 < ·) = 0 ↔ ys.sum = 0 := by
  induction ys with
  | nil => simp
  | cons y ys ih =>
    rw [List.countP_cons, List.sum_cons]
    rcases Nat.eq_zero_or_pos y with rfl | positive
    · simpa using ih
    · simp [positive, positive.ne']

theorem excess_le_sum_sub (t : Nat) (ys : List Nat) : excess t ys ≤ ys.sum - t := by
  induction ys with
  | nil => exact Nat.zero_le _
  | cons y ys ih =>
    simp only [excess, List.map_cons, List.sum_cons] at ih ⊢
    omega

theorem excess_eq_sum_sub_iff (t : Nat) (ys : List Nat) :
    excess t ys = ys.sum - t ↔ t = 0 ∨ ys.sum ≤ t ∨ ys.countP (0 < ·) ≤ 1 := by
  induction ys with
  | nil => simp [excess]
  | cons y ys ih =>
    have bound := excess_le_sum_sub t ys
    have none := countP_pos_eq_zero_iff ys
    rw [List.countP_cons]
    simp only [excess, List.map_cons, List.sum_cons] at ih bound ⊢
    rcases Nat.eq_zero_or_pos y with rfl | positive
    · simpa using ih
    · rw [if_pos (decide_eq_true positive)]
      omega

end Parts

variable {κ : Type} [DecidableEq κ] {n t : Nat} {xs ys : List (κ × Nat)} {k : κ}

def amountsOf (xs : List (κ × Nat)) (k : κ) : List Nat := (xs.filter (·.1 = k)).map Prod.snd

def totalOf (xs : List (κ × Nat)) (k : κ) : Nat := (amountsOf xs k).sum

def totals (xs : List (κ × Nat)) : List Nat := (xs.map Prod.fst).dedup.map (totalOf xs)

/-- There are at most `n` positive amounts, or each total that is split into several is reached by
`n` amounts. -/
def Unsplit (n : Nat) (xs : List (κ × Nat)) : Prop :=
  (xs.map Prod.snd).countP (0 < ·) ≤ n ∨
    ∀ k, 2 ≤ (amountsOf xs k).countP (0 < ·) → n ≤ (xs.map Prod.snd).countP (totalOf xs k ≤ ·)

theorem totalOf_filter (p : κ → Bool) (xs : List (κ × Nat)) (k : κ) :
    totalOf (xs.filter fun x => p x.1) k = if p k then totalOf xs k else 0 := by
  rw [totalOf, totalOf, amountsOf, List.filter_filter]
  split
  · next kept =>
    congr 2
    apply List.filter_congr
    intro x _
    by_cases same : x.1 = k
    · simp [same, kept]
    · simp [same]
  · next dropped =>
    have none : xs.filter (fun x => decide (x.1 = k) && p x.1) = [] := by
      rw [List.filter_eq_nil_iff]
      intro x _ both
      rw [Bool.and_eq_true, decide_eq_true_eq] at both
      obtain ⟨rfl, kept⟩ := both
      exact dropped kept
    rw [none]
    rfl

theorem totalOf_perm (perm : xs.Perm ys) (k : κ) : totalOf xs k = totalOf ys k :=
  ((perm.filter _).map _).sum_eq

theorem sum_by_key (f : Nat → Nat) {keys : Finset κ} (all : ∀ x ∈ xs, x.1 ∈ keys) :
    ((xs.map Prod.snd).map f).sum = ∑ k ∈ keys, ((amountsOf xs k).map f).sum := by
  induction xs with
  | nil => simp [amountsOf]
  | cons x xs ih =>
    obtain ⟨mem, others⟩ := List.forall_mem_cons.mp all
    have head : ∀ k, ((amountsOf (x :: xs) k).map f).sum =
        (if x.1 = k then f x.2 else 0) + ((amountsOf xs k).map f).sum := by
      intro k
      rw [amountsOf, List.filter_cons]
      by_cases same : x.1 = k
      · simp [same, amountsOf]
      · simp [same, amountsOf]
    rw [List.map_cons, List.map_cons, List.sum_cons, ih others]
    simp only [head, sum_add_distrib, sum_ite_eq, if_pos mem]

theorem mem_keys {x : κ × Nat} (mem : x ∈ xs) : x.1 ∈ (xs.map Prod.fst).toFinset :=
  List.mem_toFinset.mpr (List.mem_map_of_mem mem)

theorem amountsOf_eq_nil (absent : k ∉ (xs.map Prod.fst).toFinset) : amountsOf xs k = [] := by
  rw [amountsOf, List.map_eq_nil_iff, List.filter_eq_nil_iff]
  intro x mem same
  exact absent (of_decide_eq_true same ▸ mem_keys mem)

theorem excess_amounts {keys : Finset κ} (all : ∀ x ∈ xs, x.1 ∈ keys) (t : Nat) :
    excess t (xs.map Prod.snd) = ∑ k ∈ keys, excess t (amountsOf xs k) :=
  sum_by_key (· - t) all

theorem excess_totals {keys : Finset κ} (all : ∀ x ∈ xs, x.1 ∈ keys) (t : Nat) :
    excess t (totals xs) = ∑ k ∈ keys, (totalOf xs k - t) := by
  have distinct : (xs.map Prod.fst).dedup.toFinset = (xs.map Prod.fst).toFinset := by
    ext k
    rw [List.mem_toFinset, List.mem_toFinset, List.mem_dedup]
  have own : excess t (totals xs) = ∑ k ∈ (xs.map Prod.fst).toFinset, (totalOf xs k - t) := by
    rw [excess, totals, List.map_map, ← distinct, List.sum_toFinset _ (List.nodup_dedup _)]
    rfl
  rw [own]
  apply sum_subset
  · intro k mem
    obtain ⟨x, x_mem, rfl⟩ := List.mem_map.mp (List.mem_toFinset.mp mem)
    exact all x x_mem
  · intro k _ absent
    rw [totalOf, amountsOf_eq_nil absent, List.sum_nil, Nat.zero_sub]

theorem excess_amounts_le (t : Nat) (xs : List (κ × Nat)) :
    excess t (xs.map Prod.snd) ≤ excess t (totals xs) := by
  rw [excess_amounts (fun _ => mem_keys), excess_totals (fun _ => mem_keys)]
  exact sum_le_sum fun k _ => excess_le_sum_sub t (amountsOf xs k)

theorem excess_amounts_eq_iff (t : Nat) (xs : List (κ × Nat)) :
    excess t (xs.map Prod.snd) = excess t (totals xs) ↔
      ∀ k, t = 0 ∨ totalOf xs k ≤ t ∨ (amountsOf xs k).countP (0 < ·) ≤ 1 := by
  have bound : ∀ k ∈ (xs.map Prod.fst).toFinset,
      excess t (amountsOf xs k) ≤ totalOf xs k - t :=
    fun k _ => excess_le_sum_sub t (amountsOf xs k)
  rw [excess_amounts (fun _ => mem_keys), excess_totals (fun _ => mem_keys),
    sum_eq_sum_iff_of_le bound]
  constructor
  · intro each k
    by_cases here : k ∈ (xs.map Prod.fst).toFinset
    · exact (excess_eq_sum_sub_iff t (amountsOf xs k)).mp (each k here)
    · rw [amountsOf_eq_nil here]
      exact Or.inr (Or.inr (Nat.zero_le _))
  · intro each k _
    exact (excess_eq_sum_sub_iff t (amountsOf xs k)).mpr (each k)

theorem topSum_amounts_le (n : Nat) (xs : List (κ × Nat)) :
    topSum n (xs.map Prod.snd) ≤ topSum n (totals xs) :=
  topSum_mono fun t => excess_amounts_le t xs

theorem topSum_totals_congr (same : ∀ k, totalOf xs k = totalOf ys k) :
    topSum n (totals xs) = topSum n (totals ys) := by
  have excesses : ∀ t, excess t (totals xs) = excess t (totals ys) := by
    intro t
    have keys : ∀ x, x ∈ xs ∨ x ∈ ys →
        x.1 ∈ (xs.map Prod.fst).toFinset ∪ (ys.map Prod.fst).toFinset := by
      rintro x (mem | mem)
      · exact mem_union_left _ (mem_keys mem)
      · exact mem_union_right _ (mem_keys mem)
    rw [excess_totals fun x mem => keys x (Or.inl mem),
      excess_totals fun x mem => keys x (Or.inr mem)]
    simp only [same]
  apply le_antisymm
  · exact topSum_mono fun t => (excesses t).le
  · exact topSum_mono fun t => (excesses t).ge

theorem unsplit_of_topSum_eq (equal : topSum n (xs.map Prod.snd) = topSum n (totals xs)) :
    Unsplit n xs := by
  obtain ⟨t, separates⟩ := exists_separates n (totals xs)
  have sum := topSum_eq_iff.mpr separates
  have low := topSum_le n t (xs.map Prod.snd)
  have fewer := excess_amounts_le t xs
  have separates' : Separates n t (xs.map Prod.snd) := topSum_eq_iff.mp (by omega)
  have parts := (excess_amounts_eq_iff t xs).mp (by omega)
  rcases Nat.eq_zero_or_pos t with rfl | positive
  · exact Or.inl separates'.2
  · right
    intro k several
    have many : n ≤ (xs.map Prod.snd).countP (t ≤ ·) := by
      rcases separates'.1 with zero | many
      · omega
      · exact many
    have within : totalOf xs k ≤ t := by
      rcases parts k with zero | within | single
      · omega
      · exact within
      · omega
    apply many.trans
    apply List.countP_mono_left
    intro a _ reach
    exact decide_eq_true (within.trans (of_decide_eq_true reach))

theorem exists_threshold (some : 0 < n) (unsplit : Unsplit n xs) :
    ∃ t, Separates n t (xs.map Prod.snd) ∧
      ∀ k, t = 0 ∨ totalOf xs k ≤ t ∨ (amountsOf xs k).countP (0 < ·) ≤ 1 := by
  rcases unsplit with few | reached
  · exact ⟨0, ⟨Or.inl rfl, few⟩, fun k => Or.inl rfl⟩
  rcases Nat.lt_or_ge (xs.map Prod.snd).length n with short | enough
  · exact ⟨0, ⟨Or.inl rfl, List.countP_le_length.trans short.le⟩, fun k => Or.inl rfl⟩
  obtain ⟨t, reach, exceed⟩ := (topSplit_sort n (xs.map Prod.snd)).separates_least some enough
  refine ⟨t, ⟨Or.inr reach, exceed.le⟩, ?_⟩
  intro k
  by_cases within : totalOf xs k ≤ t
  · exact Or.inr (Or.inl within)
  · right
    right
    by_contra several
    have many := reached k (by omega)
    have fewer : (xs.map Prod.snd).countP (totalOf xs k ≤ ·) ≤
        (xs.map Prod.snd).countP (t < ·) := by
      apply List.countP_mono_left
      intro a _ reach
      exact decide_eq_true (lt_of_lt_of_le (not_le.mp within) (of_decide_eq_true reach))
    omega

/-- Ranking the amounts gives the sum of the greatest totals only where no split total matters. -/
theorem topSum_amounts_eq_iff (n : Nat) (xs : List (κ × Nat)) :
    topSum n (xs.map Prod.snd) = topSum n (totals xs) ↔ Unsplit n xs := by
  constructor
  · exact unsplit_of_topSum_eq
  · intro unsplit
    apply le_antisymm (topSum_amounts_le n xs)
    rcases Nat.eq_zero_or_pos n with rfl | some
    · exact Nat.zero_le _
    -- such a threshold bounds both sums
    obtain ⟨t, separates, parts⟩ := exists_threshold some unsplit
    calc topSum n (totals xs) ≤ n * t + excess t (totals xs) := topSum_le n t _
      _ = n * t + excess t (xs.map Prod.snd) := by
          rw [(excess_amounts_eq_iff t xs).mpr parts]
      _ = topSum n (xs.map Prod.snd) := (topSum_eq_iff.mpr separates).symm

end HadesPsTrader.Interaction
