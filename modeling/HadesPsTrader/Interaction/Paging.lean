/- Module: HadesPsTrader/Interaction/Paging
   layer: library
   digest: Pages of a history that is read newest first while it grows at its head. -/

import Mathlib.Data.List.Basic

set_option autoImplicit false
set_option relaxedAutoImplicit false

namespace HadesPsTrader.Interaction

variable {α κ : Type} [DecidableEq κ] (key : α → Option κ)

/-- The entries behind the cursor, all of them without one. -/
def olderThan (xs : List α) : Option κ → List α
  | none => xs
  | some cursor => (xs.dropWhile fun x => key x ≠ some cursor).tail

variable {key} {xs front rest : List α} {x : α} {cursor : κ}

theorem olderThan_split (here : key x = some cursor)
    (others : ∀ y ∈ front, key y ≠ some cursor) :
    olderThan key (front ++ x :: rest) (some cursor) = rest := by
  rw [olderThan, List.dropWhile_append_of_pos fun y mem => decide_eq_true (others y mem),
    List.dropWhile_cons_of_neg (by simp [here]), List.tail_cons]

/-- In a history with distinct keys, the cursor at position `m` of its old part leaves what came
after it, whatever was put in front. -/
theorem olderThan_drop {new : List α} (distinct : ((new ++ xs).map key).Nodup) {m : Nat}
    (at_m : xs[m]? = some x) (here : key x = some cursor) :
    olderThan key (new ++ xs) (some cursor) = xs.drop (m + 1) := by
  obtain ⟨inside, rfl⟩ := List.getElem?_eq_some_iff.mp at_m
  have split : new ++ xs = (new ++ xs.take m) ++ xs[m] :: xs.drop (m + 1) := by
    rw [List.append_assoc, List.getElem_cons_drop, List.take_append_drop]
  rw [split] at distinct ⊢
  apply olderThan_split here
  intro y mem same
  rw [List.map_append, List.nodup_append] at distinct
  have apart := distinct.2.2 (key y) (List.mem_map_of_mem mem) (key xs[m])
    (List.mem_map_of_mem List.mem_cons_self)
  exact apart (same.trans here.symm)

theorem getLast?_page {m size : Nat} (full : size ≤ ((xs.drop m).take size).length)
    (some : 0 < size) : ((xs.drop m).take size).getLast? = xs[m + (size - 1)]? := by
  have length : ((xs.drop m).take size).length = size :=
    Nat.le_antisymm (List.length_take_le size _) full
  rw [List.getLast?_eq_getElem?, length, List.getElem?_take_of_lt (by omega), List.getElem?_drop]

end HadesPsTrader.Interaction
