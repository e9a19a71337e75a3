/- Module: HadesPsTrader/Interaction/Bytes
   layer: library
   digest: Little-endian numbers of a fixed width, length-prefixed blocks and text as bytes. -/

import Mathlib.Tactic.Common
import HadesPsTrader.Interaction.Faults

set_option autoImplicit false
set_option relaxedAutoImplicit false

namespace HadesPsTrader.Interaction

def leValue : List UInt8 → Nat
  | [] => 0
  | b :: bytes => b.toNat + 256 * leValue bytes

def leBytes : Nat → Nat → List UInt8
  | 0, _ => []
  | width + 1, n => UInt8.ofNat n :: leBytes width (n / 256)

@[simp] theorem length_leBytes (width n : Nat) : (leBytes width n).length = width := by
  induction width generalizing n with
  | zero => rfl
  | succ width ih => rw [leBytes, List.length_cons, ih]

theorem leValue_lt (bytes : List UInt8) : leValue bytes < 256 ^ bytes.length := by
  induction bytes with
  | nil => exact Nat.one_pos
  | cons b bytes ih =>
    have digit : b.toNat < 256 := b.toNat_lt
    rw [leValue, List.length_cons, Nat.pow_succ]
    omega

theorem leValue_leBytes {width n : Nat} (fits : n < 256 ^ width) :
    leValue (leBytes width n) = n := by
  induction width generalizing n with
  | zero =>
    rw [Nat.pow_zero] at fits
    rw [leBytes, leValue]
    omega
  | succ width ih =>
    have rest : n / 256 < 256 ^ width := by
      rw [Nat.pow_succ] at fits
      omega
    have digit : (UInt8.ofNat n).toNat = n % 256 := UInt8.toNat_ofNat'
    rw [leBytes, leValue, ih rest, digit]
    omega

theorem leBytes_leValue (bytes : List UInt8) : leBytes bytes.length (leValue bytes) = bytes := by
  induction bytes with
  | nil => rfl
  | cons b bytes ih =>
    have digit : b.toNat < 256 := b.toNat_lt
    have rest : leValue (b :: bytes) / 256 = leValue bytes := by
      rw [leValue]
      omega
    have low : UInt8.ofNat (leValue (b :: bytes)) = b := by
      apply UInt8.toNat_inj.mp
      rw [UInt8.toNat_ofNat', leValue]
      omega
    rw [List.length_cons, leBytes, rest, ih, low]

/-- A block behind its length, in `width` bytes. -/
def prefixed (width : Nat) (block : List UInt8) : List UInt8 :=
  leBytes width block.length ++ block

def utf8Bytes (s : String) : List UInt8 := s.toByteArray.data.toList

def fromUtf8 (bytes : List UInt8) : Option String := String.fromUTF8? bytes.toByteArray

theorem fromUtf8_utf8Bytes (s : String) : fromUtf8 (utf8Bytes s) = some s := by
  have same : (utf8Bytes s).toByteArray = s.toByteArray := by
    apply ByteArray.ext
    rw [List.data_toByteArray, utf8Bytes, Array.toArray_toList]
  rw [fromUtf8, same, String.fromUTF8?, dif_pos s.isValidUTF8]
  rfl

theorem utf8Bytes_of_fromUtf8 {bytes : List UInt8} {s : String}
    (decoded : fromUtf8 bytes = some s) : utf8Bytes s = bytes := by
  rw [fromUtf8, String.fromUTF8?] at decoded
  split_ifs at decoded with valid
  have same := Option.some.inj decoded
  rw [← same, utf8Bytes]
  change bytes.toByteArray.data.toList = bytes
  rw [List.data_toByteArray]

section Reads

variable {ε : Type}

def readU16 (data : List UInt8) (offset : Nat) : Except (Fault ε) Nat := do
  let low ← index data offset
  let high ← index data (offset + 1)
  return leValue [low, high]

theorem readU16_append (front rest : List UInt8) {offset n : Nat} (starts : front.length = offset)
    (fits : n < 2 ^ 16) :
    readU16 (front ++ leBytes 2 n ++ rest) offset = (.ok n : Except (Fault ε) Nat) := by
  have low : (front ++ leBytes 2 n ++ rest)[offset]? = some (UInt8.ofNat n) := by
    rw [List.append_assoc, ← starts, List.getElem?_append_right (Nat.le_refl _), Nat.sub_self]
    rfl
  have high : (front ++ leBytes 2 n ++ rest)[offset + 1]? = some (UInt8.ofNat (n / 256)) := by
    rw [List.append_assoc, List.getElem?_append_right (by omega), ← starts, Nat.add_sub_cancel_left]
    rfl
  have value : leValue (leBytes 2 n) = n := leValue_leBytes fits
  rw [readU16, index_eq_ok low, ok_bind, index_eq_ok high, ok_bind]
  exact congrArg Except.ok value

end Reads

end HadesPsTrader.Interaction
