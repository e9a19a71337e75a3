/- Module: HadesPsTrader/Interaction/Windowed
   layer: library
   digest: A queue of stamped entries that drops its stale front, and the window it then holds. -/

import Mathlib.Data.List.DropRight
import HadesPsTrader.Interaction.Machine

set_option autoImplicit false
set_option relaxedAutoImplicit false

namespace HadesPsTrader.Interaction

/-- Which stamps are recent at a reading of the clock. -/
structure Recency (τ : Type) [Preorder τ] where
  recent : τ → τ → Bool
  present : ∀ now, recent now now
  younger : ∀ {now s t : τ}, s ≤ t → recent now s → recent now t
  earlier : ∀ {now later s : τ}, now ≤ later → recent later s → recent now s

namespace Recency

variable {τ ε : Type} [Preorder τ] (r : Recency τ) {now later : τ}

/-- The recent entries of a log, in the order of the log. -/
def within (now : τ) (log : List (τ × ε)) : List (τ × ε) := log.filter fun e => r.recent now e.1

/-- A queue without the entries in front of its first recent one. -/
def evict (now : τ) (queue : List (τ × ε)) : List (τ × ε) :=
  queue.dropWhile fun e => !r.recent now e.1

theorem evict_evict (queue : List (τ × ε)) :
    r.evict now (r.evict now queue) = r.evict now queue :=
  List.dropWhile_idempotent _ _

theorem evict_eq_within {queue : List (τ × ε)} (sorted : queue.Pairwise fun x y => x.1 ≤ y.1) :
    r.evict now queue = r.within now queue := by
  induction queue with
  | nil => rfl
  | cons x xs ih =>
    obtain ⟨first, rest⟩ := List.pairwise_cons.mp sorted
    by_cases fresh : r.recent now x.1 = true
    · have young : ∀ y ∈ x :: xs, r.recent now y.1 = true := by
        rintro y (_ | ⟨_, mem⟩)
        · exact fresh
        · exact r.younger (first y mem) fresh
      rw [evict, List.dropWhile_cons_of_neg (by simpa using fresh), within,
        List.filter_eq_self.mpr young]
    · rw [evict, List.dropWhile_cons_of_pos (by simpa using fresh), within,
        List.filter_cons_of_neg (by simpa using fresh)]
      exact ih rest

theorem within_within (le : now ≤ later) (log : List (τ × ε)) :
    r.within later (r.within now log) = r.within later log := by
  rw [within, within, within, List.filter_filter]
  refine List.filter_congr ?_
  intro e _
  by_cases fresh : r.recent later e.1 = true
  · rw [fresh, r.earlier le fresh]
    rfl
  · rw [Bool.not_eq_true] at fresh
    rw [fresh, Bool.false_and]

theorem within_push (log : List (τ × ε)) (new : Option ε) :
    r.within now (log ++ (new.map (now, ·)).toList) =
      r.within now log ++ (new.map (now, ·)).toList := by
  rw [within, within, List.filter_append]
  congr 1
  cases new with
  | none => rfl
  | some a =>
    have kept : r.recent now now = true := r.present now
    simp [kept]

theorem front_le {log : List (τ × ε)} (sorted : log.Pairwise fun x y => x.1 ≤ y.1) {front : τ × ε}
    (first : (r.within now log).head? = some front) {e : τ × ε} (mem : e ∈ log)
    (fresh : r.recent now e.1) : front.1 ≤ e.1 := by
  have held : e ∈ r.within now log := List.mem_filter.mpr ⟨mem, fresh⟩
  have ordered : (r.within now log).Pairwise fun x y => x.1 ≤ y.1 := sorted.filter _
  obtain ⟨rest, split⟩ := List.head?_eq_some_iff.mp first
  rw [split] at held ordered
  rcases List.mem_cons.mp held with rfl | behind
  · exact le_refl _
  · exact (List.pairwise_cons.mp ordered).1 e behind

end Recency

section Pushed

variable {α τ ε : Type} (time : α → τ) (brings : α → Option ε) (input : Nat → α)

/-- Every entry that the inputs before input `n` have brought, with their stamps. -/
def pushed (n : Nat) : List (τ × ε) :=
  ((List.range n).map input).filterMap fun a => (brings a).map (time a, ·)

theorem pushed_succ (n : Nat) : pushed time brings input (n + 1) =
    pushed time brings input n ++ ((brings (input n)).map (time (input n), ·)).toList := by
  have last : [input n].filterMap (fun a => (brings a).map (time a, ·)) =
      ((brings (input n)).map (time (input n), ·)).toList := by
    cases new : brings (input n) with
    | none => simp [new]
    | some a => simp [new]
  rw [pushed, List.range_succ, List.map_append, List.filterMap_append, List.map_singleton, last]
  rfl

variable {time brings input}

theorem mem_pushed {n : Nat} {e : τ × ε} (mem : e ∈ pushed time brings input n) :
    ∃ i < n, e.1 = time (input i) := by
  obtain ⟨a, here, brought⟩ := List.mem_filterMap.mp mem
  obtain ⟨i, lt, rfl⟩ := List.mem_map.mp here
  obtain ⟨x, -, rfl⟩ := Option.map_eq_some_iff.mp brought
  exact ⟨i, List.mem_range.mp lt, rfl⟩

theorem pushed_sorted [Preorder τ] (ordered : Monotone fun n => time (input n)) (n : Nat) :
    (pushed time brings input n).Pairwise fun x y => x.1 ≤ y.1 := by
  induction n with
  | zero => exact .nil
  | succ n ih =>
    rw [pushed_succ]
    refine List.pairwise_append.mpr ⟨ih, ?_, ?_⟩
    · cases brings (input n) with
      | none => exact .nil
      | some a => exact List.pairwise_singleton _ _
    · intro x mem y last
      obtain ⟨i, lt, stamp⟩ := mem_pushed mem
      obtain ⟨a, -, rfl⟩ := Option.map_eq_some_iff.mp (Option.mem_toList.mp last)
      rw [stamp]
      exact ordered lt.le

end Pushed

/-- A machine with a queue in its state: every input drops the stale front of the queue and then
pushes what it brings, stamped with its own reading. -/
structure Windowed {σ α β τ ε : Type} [Preorder τ] (m : Machine σ α β) (r : Recency τ)
    (time : α → τ) (brings : α → Option ε) where
  queue : σ → List (τ × ε)
  Sound : σ → Prop
  sound : Sound m.start
  empty : queue m.start = []
  keeps : ∀ {s : σ} {a : α}, Sound s → Sound (m.step s a).1
  step : ∀ {s : σ} {a : α}, Sound s →
    queue (m.step s a).1 = r.evict (time a) (queue s) ++ ((brings a).map (time a, ·)).toList

namespace Windowed

variable {σ α β τ ε : Type} [Preorder τ] {m : Machine σ α β} {r : Recency τ} {time : α → τ}
  {brings : α → Option ε} (w : Windowed m r time brings) {input : Nat → α}

theorem state_sound (n : Nat) : w.Sound (m.state input n) :=
  m.invariant input (I := fun _ s => w.Sound s) w.sound (fun _ _ _ sound => w.keeps sound) n

theorem queue_succ (ordered : Monotone fun n => time (input n)) {n : Nat} {now : τ}
    (le : now ≤ time (input n))
    (here : w.queue (m.state input n) = r.within now (pushed time brings input n)) :
    w.queue (m.state input (n + 1)) =
      r.within (time (input n)) (pushed time brings input (n + 1)) := by
  have sorted : (r.within now (pushed time brings input n)).Pairwise fun x y => x.1 ≤ y.1 :=
    (pushed_sorted ordered n).filter _
  have evicted : r.evict (time (input n)) (w.queue (m.state input n)) =
      r.within (time (input n)) (pushed time brings input n) := by
    rw [here, r.evict_eq_within sorted, r.within_within le]
  have stepped : w.queue (m.state input (n + 1)) =
      r.evict (time (input n)) (w.queue (m.state input n)) ++
        ((brings (input n)).map (time (input n), ·)).toList := w.step (w.state_sound n)
  rw [stepped, evicted, pushed_succ, r.within_push]

/-- After every input the queue is exactly the window of all that was pushed. -/
theorem queue_eq (ordered : Monotone fun n => time (input n)) (n : Nat) :
    w.queue (m.state input (n + 1)) =
      r.within (time (input n)) (pushed time brings input (n + 1)) := by
  induction n with
  | zero => exact w.queue_succ ordered (le_refl _) w.empty
  | succ n ih => exact w.queue_succ ordered (ordered n.le_succ) ih

theorem evict_queue (ordered : Monotone fun n => time (input n)) (n : Nat) {later : τ}
    (le : time (input n) ≤ later) :
    r.evict later (w.queue (m.state input (n + 1))) =
      r.within later (pushed time brings input (n + 1)) := by
  have sorted : (r.within (time (input n)) (pushed time brings input (n + 1))).Pairwise
      fun x y => x.1 ≤ y.1 := (pushed_sorted ordered (n + 1)).filter _
  rw [w.queue_eq ordered, r.evict_eq_within sorted, r.within_within le]

theorem front_oldest (ordered : Monotone fun n => time (input n)) (n : Nat) {front : τ × ε}
    (first : (w.queue (m.state input (n + 1))).head? = some front) {e : τ × ε}
    (mem : e ∈ pushed time brings input (n + 1)) (fresh : r.recent (time (input n)) e.1) :
    front.1 ≤ e.1 := by
  rw [w.queue_eq ordered] at first
  exact r.front_le (pushed_sorted ordered (n + 1)) first mem fresh

end Windowed

end HadesPsTrader.Interaction
