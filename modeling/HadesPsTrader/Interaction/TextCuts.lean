/- Module: HadesPsTrader/Interaction/TextCuts
   layer: library
   digest: Cutting a text at byte offsets of its UTF-8 encoding. -/

import Mathlib.Algebra.GroupWithZero.Nat
import Mathlib.Tactic.Common

set_option autoImplicit false
set_option relaxedAutoImplicit false

namespace HadesPsTrader.Interaction

def byteLen (cs : List Char) : Nat := (cs.map Char.utf8Size).sum

theorem byteLen_cons (c : Char) (cs : List Char) :
    byteLen (c :: cs) = c.utf8Size + byteLen cs := by
  rw [byteLen, List.map_cons, List.sum_cons, byteLen]

theorem byteLen_append (as bs : List Char) :
    byteLen (as ++ bs) = byteLen as + byteLen bs := by
  rw [byteLen, List.map_append, List.sum_append, byteLen, byteLen]

theorem byteLen_eq_zero_iff {cs : List Char} : byteLen cs = 0 ↔ cs = [] := by
  cases cs with
  | nil => exact ⟨fun _ => rfl, fun _ => rfl⟩
  | cons c cs =>
    have positive := c.utf8Size_pos
    rw [byteLen_cons]
    constructor
    · omega
    · nofun

theorem byteLen_toList (s : String) : byteLen s.toList = s.utf8ByteSize := by
  have encoded (cs : List Char) : (String.ofList cs).utf8ByteSize = byteLen cs := by
    induction cs with
    | nil => rfl
    | cons c cs ih =>
      rw [String.ofList_cons, String.utf8ByteSize_append, String.utf8ByteSize_singleton, ih,
        byteLen_cons]
  rw [← encoded, String.ofList_toList]

theorem byteLen_ascii {cs : List Char} (ascii : ∀ c ∈ cs, c.utf8Size = 1) :
    byteLen cs = cs.length := by
  induction cs with
  | nil => rfl
  | cons c cs ih =>
    obtain ⟨first, rest⟩ := List.forall_mem_cons.mp ascii
    rw [byteLen_cons, first, ih rest, List.length_cons, Nat.add_comm]

/-- `str::split_at_checked`: none off the character boundaries and beyond the end. -/
def splitAtChecked : Nat → List Char → Option (List Char × List Char)
  | 0, cs => some ([], cs)
  | _ + 1, [] => none
  | n + 1, c :: cs =>
    if c.utf8Size ≤ n + 1 then
      (splitAtChecked (n + 1 - c.utf8Size) cs).map fun cut => (c :: cut.1, cut.2)
    else none

theorem splitAtChecked_zero_iff {cs as bs : List Char} :
    splitAtChecked 0 cs = some (as, bs) ↔ cs = as ++ bs ∧ byteLen as = 0 := by
  have whole : splitAtChecked 0 cs = some ([], cs) := by
    rw [splitAtChecked]
  rw [whole, byteLen_eq_zero_iff, Option.some.injEq, Prod.mk.injEq]
  constructor
  · rintro ⟨rfl, rfl⟩
    exact ⟨rfl, rfl⟩
  · rintro ⟨same, rfl⟩
    exact ⟨rfl, same⟩

theorem splitAtChecked_eq_some_iff {n : Nat} {cs as bs : List Char} :
    splitAtChecked n cs = some (as, bs) ↔ cs = as ++ bs ∧ byteLen as = n := by
  induction cs generalizing n as with
  | nil =>
    cases n with
    | zero => exact splitAtChecked_zero_iff
    | succ n =>
      rw [splitAtChecked]
      refine iff_of_false nofun ?_
      rintro ⟨same, long⟩
      obtain ⟨rfl, -⟩ := List.nil_eq_append_iff.mp same
      cases long
  | cons c cs ih =>
    cases n with
    | zero => exact splitAtChecked_zero_iff
    | succ n =>
      have positive := c.utf8Size_pos
      rw [splitAtChecked]
      split
      · next fits =>
        rw [Option.map_eq_some_iff]
        constructor
        · rintro ⟨⟨as', bs'⟩, cut, same⟩
          cases same
          obtain ⟨rfl, bytes⟩ := ih.mp cut
          refine ⟨rfl, ?_⟩
          rw [byteLen_cons, bytes]
          omega
        · rintro ⟨same, bytes⟩
          cases as with
          | nil => cases bytes
          | cons a as =>
            rw [List.cons_append, List.cons.injEq] at same
            obtain ⟨rfl, rest⟩ := same
            rw [byteLen_cons] at bytes
            exact ⟨(as, bs), ih.mpr ⟨rest, by omega⟩, rfl⟩
      · next wide =>
        refine iff_of_false nofun ?_
        rintro ⟨same, bytes⟩
        cases as with
        | nil => cases bytes
        | cons a as =>
          rw [List.cons_append, List.cons.injEq] at same
          obtain ⟨rfl, -⟩ := same
          rw [byteLen_cons] at bytes
          omega

theorem isSome_splitAtChecked_iff {n : Nat} {cs : List Char} :
    (splitAtChecked n cs).isSome ↔ ∃ as bs, cs = as ++ bs ∧ byteLen as = n := by
  rw [Option.isSome_iff_exists]
  constructor
  · rintro ⟨⟨as, bs⟩, cut⟩
    exact ⟨as, bs, splitAtChecked_eq_some_iff.mp cut⟩
  · rintro ⟨as, bs, cut⟩
    exact ⟨(as, bs), splitAtChecked_eq_some_iff.mpr cut⟩

theorem isSome_splitAtChecked_end_iff {n : Nat} {cs : List Char} (long : n ≤ byteLen cs) :
    (splitAtChecked (byteLen cs - n) cs).isSome ↔ ∃ as bs, cs = as ++ bs ∧ byteLen bs = n := by
  rw [isSome_splitAtChecked_iff]
  constructor
  · rintro ⟨as, bs, rfl, bytes⟩
    rw [byteLen_append] at bytes long
    exact ⟨as, bs, rfl, by omega⟩
  · rintro ⟨as, bs, rfl, bytes⟩
    rw [byteLen_append] at long ⊢
    exact ⟨as, bs, rfl, by omega⟩

end HadesPsTrader.Interaction
