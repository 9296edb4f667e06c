import Mathlib.Data.List.Basic

/-!
# Bytes as hexadecimal text

Two lower-case digits for each byte, the high half first.
-/

namespace Hex

def digits : List Char :=
  ['0', '1', '2', '3', '4', '5', '6', '7', '8', '9', 'a', 'b', 'c', 'd', 'e', 'f']

def digit (n : Nat) : Char := digits.getD n '0'

/-- The digits of one byte. -/
def pair (b : UInt8) : List Char := [digit (b.toNat / 16), digit (b.toNat % 16)]

def chars (bytes : List UInt8) : List Char := bytes.flatMap pair

variable {bytes : List UInt8}

theorem digit_mem (n : Nat) : digit n ∈ digits := by
  rw [digit, List.getD_eq_getElem?_getD]
  cases found : digits[n]? with
  | none => exact List.mem_cons_self
  | some c => exact List.mem_of_getElem? found

@[simp] theorem length_chars (bytes : List UInt8) : (chars bytes).length = 2 * bytes.length := by
  induction bytes with
  | nil => rfl
  | cons b bytes ih =>
      change (chars bytes).length + 2 = _
      rw [ih, List.length_cons]
      omega

theorem mem_chars {c : Char} (h : c ∈ chars bytes) : c ∈ digits := by
  obtain ⟨b, -, member⟩ := List.mem_flatMap.mp h
  rcases List.mem_cons.mp member with rfl | member
  · exact digit_mem _
  · rw [List.mem_singleton.mp member]
    exact digit_mem _

end Hex
