import Metasolver.Lib.Hex

/-!
# `uuid::v4::UUID`

Sixteen random bytes with the version and the variant of a random identifier, and their text
(`UUID.h`).  The distribution of the source has both limits 0 and 256, so a byte is drawn from
257 values and the last of them becomes zero.
-/

namespace Metasolver

/-- What `dist(engine)` returns for the sixteen bytes. -/
abbrev Draws := Fin 16 → Fin 257

/-- `uuid::v4::UUID`. -/
structure Uuid where
  data : Vector UInt8 16
  deriving DecidableEq

namespace Uuid

/-- `New` (`UUID.h:17-33`). -/
def new (draws : Draws) : Uuid :=
  let data := Vector.ofFn fun index => UInt8.ofNat (draws index)
  let data := data.set 6 ((data[6] &&& 0x0f) ||| 0x40)
  let data := data.set 8 ((data[8] &&& 0x3f) ||| 0x80)
  ⟨data⟩

/-- The digits of `n` bytes from the `i`-th on. -/
def group (uuid : Uuid) (i n : Nat) : List Char :=
  Hex.chars ((uuid.data.toList.drop i).take n)

/-- The texts between the hyphens. -/
def groups (uuid : Uuid) : List (List Char) :=
  [uuid.group 0 4, uuid.group 4 2, uuid.group 6 2, uuid.group 8 2, uuid.group 10 6]

/-- `String` (`UUID.h:36-51`). -/
def string (uuid : Uuid) : String := String.ofList (['-'].intercalate uuid.groups)

/-- The text of a version 4 identifier: version and variant are the first digits of the third
    and of the fourth group. -/
def Version4 (text : List Char) : Prop :=
  ∃ (a b c d e : List Char) (variant : Char),
    text = a ++ '-' :: (b ++ '-' :: ('4' :: c ++ '-' :: (variant :: d ++ '-' :: e))) ∧
      a.length = 8 ∧ b.length = 4 ∧ c.length = 3 ∧ d.length = 3 ∧ e.length = 12 ∧
      variant ∈ ['8', '9', 'a', 'b'] ∧
      ∀ x ∈ a ++ b ++ c ++ d ++ e, x ∈ Hex.digits

/-! ## Version and variant -/

variable {uuid : Uuid}

theorem length_data : uuid.data.toList.length = 16 := uuid.data.length_toList

theorem digit_version (b : UInt8) : Hex.digit (((b &&& 0x0f) ||| 0x40).toNat / 16) = '4' := by
  have each : ∀ n : Fin 256,
      Hex.digit (((UInt8.ofNat n &&& 0x0f) ||| 0x40).toNat / 16) = '4' := by decide +kernel
  have at_b := each ⟨b.toNat, b.toNat_lt⟩
  rwa [UInt8.ofNat_toNat] at at_b

theorem digit_variant (b : UInt8) :
    Hex.digit (((b &&& 0x3f) ||| 0x80).toNat / 16) ∈ ['8', '9', 'a', 'b'] := by
  have each : ∀ n : Fin 256, Hex.digit (((UInt8.ofNat n &&& 0x3f) ||| 0x80).toNat / 16) ∈
      ['8', '9', 'a', 'b'] := by decide +kernel
  have at_b := each ⟨b.toNat, b.toNat_lt⟩
  rwa [UInt8.ofNat_toNat] at at_b

/-- Two bytes of the text. -/
theorem take_two {i : Nat} (bound : i + 1 < 16) :
    (uuid.data.toList.drop i).take 2 = [uuid.data[i], uuid.data[i + 1]] := by
  have length : uuid.data.toList.length = 16 := length_data
  rw [List.drop_eq_getElem_cons (by omega), List.take_succ_cons,
    List.drop_eq_getElem_cons (by omega), List.take_succ_cons, List.take_zero]
  simp

theorem length_group {i n : Nat} (bound : i + n ≤ 16) :
    (uuid.group i n).length = 2 * n := by
  have length : uuid.data.toList.length = 16 := length_data
  rw [group, Hex.length_chars, List.length_take, List.length_drop, length]
  omega

theorem version4_of_bytes (version : Hex.digit (uuid.data[6].toNat / 16) = '4')
    (variant : Hex.digit (uuid.data[8].toNat / 16) ∈ ['8', '9', 'a', 'b']) :
    Version4 uuid.string.toList := by
  have third : uuid.group 6 2 =
      '4' :: (Hex.digit (uuid.data[6].toNat % 16) :: Hex.pair uuid.data[7]) := by
    rw [group, take_two (by decide), ← version]
    rfl
  have fourth : uuid.group 8 2 = Hex.digit (uuid.data[8].toNat / 16) ::
      (Hex.digit (uuid.data[8].toNat % 16) :: Hex.pair uuid.data[9]) := by
    rw [group, take_two (by decide)]
    rfl
  refine ⟨uuid.group 0 4, uuid.group 4 2,
    Hex.digit (uuid.data[6].toNat % 16) :: Hex.pair uuid.data[7],
    Hex.digit (uuid.data[8].toNat % 16) :: Hex.pair uuid.data[9], uuid.group 10 6, _, ?_,
    length_group (by decide : 0 + 4 ≤ 16), length_group (by decide : 4 + 2 ≤ 16), rfl, rfl,
    length_group (by decide : 10 + 6 ≤ 16), variant, ?_⟩
  · rw [string, String.toList_ofList]
    simp only [groups, List.intercalate_cons_cons, List.intercalate_singleton, third, fourth]
    simp
  · intro x inside
    simp only [List.mem_append] at inside
    rcases inside with (((inA | inB) | inC) | inD) | inE
    · exact Hex.mem_chars inA
    · exact Hex.mem_chars inB
    · have inC := List.mem_cons_of_mem '4' inC
      rw [← third] at inC
      exact Hex.mem_chars inC
    · have inD := List.mem_cons_of_mem (Hex.digit (uuid.data[8].toNat / 16)) inD
      rw [← fourth] at inD
      exact Hex.mem_chars inD
    · exact Hex.mem_chars inE

theorem version4_new (draws : Draws) : Version4 (new draws).string.toList := by
  apply version4_of_bytes
  · have sixth : (new draws).data[6] = ((UInt8.ofNat (draws 6) &&& 0x0f) ||| 0x40) := by
      simp [new]
    rw [sixth]
    exact digit_version _
  · have eighth : (new draws).data[8] = ((UInt8.ofNat (draws 8) &&& 0x3f) ||| 0x80) := by
      simp [new]
    rw [eighth]
    exact digit_variant _

end Uuid

end Metasolver
