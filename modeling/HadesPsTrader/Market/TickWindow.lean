/- Module: HadesPsTrader/Market/TickWindow
   source: src/capitulation.rs, src/dip_buy.rs
   digest: What eviction keeps, and the window of a feed of ticks at each tick. -/

import Mathlib.Order.Bounds.Basic
import Mathlib.Order.Monotone.Defs
import HadesPsTrader.Interaction.Windowed
import HadesPsTrader.Market.Capitulation

set_option autoImplicit false
set_option relaxedAutoImplicit false

namespace HadesPsTrader.Market

open Interaction (Recency pushed pushed_sorted)

/-- A stamp is recent while its age is at most the window. -/
def recency (window : Duration) : Recency Instant where
  recent now ts := durationSince now ts ≤ window
  present now := by
    rw [durationSince, Nat.sub_self]
    exact decide_eq_true (Nat.zero_le window)
  younger := by
    intro now s t le fresh
    exact decide_eq_true ((Nat.sub_le_sub_left le now).trans (of_decide_eq_true fresh))
  earlier := by
    intro now later s le fresh
    exact decide_eq_true ((Nat.sub_le_sub_right le s).trans (of_decide_eq_true fresh))

section Evict

variable {α : Type} {window : Duration} {now : Instant}

theorem evictOld_eq_evict (xs : List (Instant × α)) :
    evictOld window now xs = (recency window).evict now xs := by
  induction xs with
  | nil => rfl
  | cons x xs ih =>
      rw [evictOld]
      split_ifs with stale
      · rw [ih, Recency.evict, Recency.evict, List.dropWhile_cons_of_pos]
        simpa [recency] using stale
      · rw [Recency.evict, List.dropWhile_cons_of_neg]
        simpa [recency] using stale

theorem evictOld_evictOld (xs : List (Instant × α)) :
    evictOld window now (evictOld window now xs) = evictOld window now xs := by
  rw [evictOld_eq_evict, evictOld_eq_evict, Recency.evict_evict]

theorem evictOld_split (window : Duration) (now : Instant) (xs : List (Instant × α)) :
    ∃ old, xs = old ++ evictOld window now xs ∧ ∀ x ∈ old, window < now - x.1 := by
  induction xs with
  | nil => exact ⟨[], rfl, nofun⟩
  | cons x xs ih =>
      rw [evictOld]
      split_ifs with stale
      · obtain ⟨old, split, older⟩ := ih
        refine ⟨x :: old, by rw [List.cons_append, ← split], ?_⟩
        rintro y (_ | ⟨_, mem⟩)
        · exact stale
        · exact older y mem
      · exact ⟨[], rfl, nofun⟩

theorem evictOld_eq_filter {xs : List (Instant × α)} (sorted : xs.Pairwise fun x y => x.1 ≤ y.1) :
    evictOld window now xs = xs.filter fun x => now - x.1 ≤ window := by
  rw [evictOld_eq_evict, Recency.evict_eq_within _ sorted]
  rfl

theorem evictOld_push (xs : List (Instant × α)) (a : α) :
    evictOld window now (evictOld window now xs ++ [(now, a)]) =
      evictOld window now xs ++ [(now, a)] := by
  induction xs with
  | nil =>
    have new : ¬ window < durationSince now now := by
      rw [durationSince, Nat.sub_self]
      exact Nat.not_lt_zero window
    rw [evictOld, List.nil_append, evictOld, if_neg new]
  | cons x xs ih =>
    rw [evictOld]
    split_ifs with stale
    · exact ih
    · rw [List.cons_append, evictOld, if_neg stale]

end Evict

/-- A feed of ticks in the order of their clock readings. -/
structure Feed (α : Type) where
  tick : Nat → Instant × α
  ordered : Monotone fun n => (tick n).1

namespace Feed

variable {α : Type} (f : Feed α)

def time (n : Nat) : Instant := (f.tick n).1

def value (n : Nat) : α := (f.tick n).2

theorem time_mono {i j : Nat} (le : i ≤ j) : f.time i ≤ f.time j := f.ordered le

def before (n : Nat) : List (Instant × α) := (List.range n).map f.tick

/-- The ticks up to tick `n` that are then within the window, oldest first. -/
def within (window : Duration) (n : Nat) : List (Instant × α) :=
  (f.before (n + 1)).filter fun t => f.time n - t.1 ≤ window

/-- The ticks still stored when tick `n` arrives: those within the window at the tick before. -/
def stored (window : Duration) (n : Nat) : List (Instant × α) :=
  (f.before n).filter fun t => f.time (n - 1) - t.1 ≤ window

theorem before_succ (n : Nat) : f.before (n + 1) = f.before n ++ [f.tick n] := by
  rw [before, List.range_succ, List.map_append]
  rfl

theorem mem_before {n : Nat} {t : Instant × α} : t ∈ f.before n ↔ ∃ i < n, f.tick i = t := by
  simp [before]

theorem before_sorted (n : Nat) : (f.before n).Pairwise fun x y => x.1 ≤ y.1 := by
  have whole : pushed Prod.fst (fun t => some t.2) f.tick n = f.before n :=
    List.filterMap_some
  rw [← whole]
  exact pushed_sorted f.ordered n

theorem mem_within {window : Duration} {n : Nat} {t : Instant × α} :
    t ∈ f.within window n ↔ ∃ i ≤ n, f.tick i = t ∧ f.time n - f.time i ≤ window := by
  rw [within, List.mem_filter, mem_before]
  constructor
  · rintro ⟨⟨i, lt, rfl⟩, young⟩
    exact ⟨i, Nat.le_of_lt_succ lt, rfl, of_decide_eq_true young⟩
  · rintro ⟨i, le, rfl, young⟩
    exact ⟨⟨i, Nat.lt_succ_of_le le, rfl⟩, decide_eq_true young⟩

theorem evict_push (window : Duration) (n : Nat) :
    evictOld window (f.time n) (f.stored window n) ++ [f.tick n] = f.within window n := by
  have sorted : (f.stored window n).Pairwise fun x y => x.1 ≤ y.1 :=
    (f.before_sorted n).filter _
  have kept : (recency window).within (f.time n) (f.stored window n) =
      (recency window).within (f.time n) (f.before n) :=
    Recency.within_within _ (f.time_mono (Nat.sub_le n 1)) _
  rw [evictOld_eq_evict, Recency.evict_eq_within _ sorted, kept]
  exact ((congrArg _ (f.before_succ n)).trans
    (Recency.within_push _ (f.before n) (some (f.value n)))).symm

/-- The values of the ticks before tick `n` with a property. -/
def seen (p : Nat → Prop) (n : Nat) : Set α := {x | ∃ i < n, p i ∧ f.value i = x}

theorem seen_succ_of {p : Nat → Prop} {n : Nat} (here : p n) :
    f.seen p (n + 1) = insert (f.value n) (f.seen p n) := by
  ext x
  constructor
  · rintro ⟨i, lt, holds, rfl⟩
    rcases Nat.lt_succ_iff_lt_or_eq.mp lt with before | rfl
    · exact .inr ⟨i, before, holds, rfl⟩
    · exact .inl rfl
  · rintro (rfl | ⟨i, lt, holds, rfl⟩)
    · exact ⟨n, n.lt_succ_self, here, rfl⟩
    · exact ⟨i, lt.trans n.lt_succ_self, holds, rfl⟩

theorem seen_succ_of_not {p : Nat → Prop} {n : Nat} (not_here : ¬ p n) :
    f.seen p (n + 1) = f.seen p n := by
  ext x
  constructor
  · rintro ⟨i, lt, holds, rfl⟩
    rcases Nat.lt_succ_iff_lt_or_eq.mp lt with before | rfl
    · exact ⟨i, before, holds, rfl⟩
    · exact absurd holds not_here
  · rintro ⟨i, lt, holds, rfl⟩
    exact ⟨i, lt.trans n.lt_succ_self, holds, rfl⟩

theorem least_kept [LinearOrder α] {p : Nat → Prop} {n : Nat} {low : α}
    (least : IsLeast (f.seen p n) low) (above : p n → low ≤ f.value n) :
    IsLeast (f.seen p (n + 1)) low := by
  by_cases here : p n
  · rw [f.seen_succ_of here]
    have inserted := least.insert (f.value n)
    rwa [min_eq_right (above here)] at inserted
  · rw [f.seen_succ_of_not here]
    exact least

theorem least_lowered [LinearOrder α] {p : Nat → Prop} {n : Nat} {low : α}
    (least : IsLeast (f.seen p n) low) (here : p n) (below : f.value n ≤ low) :
    IsLeast (f.seen p (n + 1)) (f.value n) := by
  rw [f.seen_succ_of here]
  have inserted := least.insert (f.value n)
  rwa [min_eq_left below] at inserted

theorem within_getLast? (window : Duration) (n : Nat) :
    (f.within window n).getLast? = some (f.tick n) := by
  rw [← evict_push, List.getLast?_append]
  rfl

end Feed

end HadesPsTrader.Market
