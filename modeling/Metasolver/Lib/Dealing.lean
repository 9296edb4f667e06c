import Mathlib.Algebra.BigOperators.Group.List.Basic
import Mathlib.Algebra.Ring.Nat

/-!
# Dealing out a list

A list is dealt out to buffers of given sizes, to each what is next, until it is used up.
`deal` lists what each buffer gets and `overwrite` puts it into the buffer.  Read in
order, the parts are a prefix of the list.
-/

namespace Dealing

variable {α : Type} {a : α} {buffer l : List α} {j size : Nat} {sizes : List Nat}

/-- The elements of the buffer from `j` on are replaced by those of `l`. -/
def overwrite (buffer : List α) (j : Nat) (l : List α) : List α :=
  buffer.take j ++ l ++ buffer.drop (j + l.length)

@[simp] theorem overwrite_nil : overwrite buffer j [] = buffer := by
  simp [overwrite]

theorem overwrite_zero : overwrite buffer 0 l = l ++ buffer.drop l.length := by
  simp [overwrite]

/-- Replacing one element and then the ones after it. -/
theorem overwrite_set (inside : j < buffer.length) :
    overwrite (buffer.set j a) (j + 1) l = overwrite buffer j (a :: l) := by
  have untouched : (buffer.take j).length = j := by
    rw [List.length_take]
    omega
  have first : (buffer.set j a).take (j + 1) = buffer.take j ++ [a] := by
    rw [List.take_set, List.take_succ_eq_append_getElem inside,
      List.set_append_right _ _ (Nat.le_of_eq untouched), untouched, Nat.sub_self]
    rfl
  have rest : (buffer.set j a).drop (j + 1 + l.length) = buffer.drop (j + (a :: l).length) := by
    rw [List.drop_set_of_lt (by omega), List.length_cons]
    congr 1
    omega
  rw [overwrite, overwrite, first, rest]
  simp

theorem length_overwrite_zero (fits : l.length ≤ buffer.length) :
    (overwrite buffer 0 l).length = buffer.length := by
  rw [overwrite_zero, List.length_append, List.length_drop]
  omega

/-- Up to the end of what has been written. -/
theorem take_overwrite (inside : j ≤ buffer.length) :
    (overwrite buffer j l).take (j + l.length) = buffer.take j ++ l := by
  have written : (buffer.take j ++ l).length = j + l.length := by
    rw [List.length_append, List.length_take, Nat.min_eq_left inside]
  exact List.take_left' written

/-- Nothing is left of what was there before. -/
theorem overwrite_of_length (full : j + l.length = buffer.length) :
    overwrite buffer j l = buffer.take j ++ l := by
  rw [overwrite, full, List.drop_length, List.append_nil]

/-- What is next after a part has been taken. -/
theorem drop_length_take : l.drop (l.take size).length = l.drop size := by
  rw [List.length_take]
  by_cases enough : size ≤ l.length
  · rw [Nat.min_eq_left enough]
  · rw [Nat.min_eq_right (by omega), List.drop_length, List.drop_eq_nil_of_le (by omega)]

/-- What each buffer gets. -/
def deal : (sizes : List Nat) → (l : List α) → List (List α)
  | [], _ => []
  | size :: sizes, l => l.take size :: deal sizes (l.drop size)

/-- The parts are a prefix of the list, each element in one of them. -/
theorem flatten_deal : (deal sizes l).flatten = l.take sizes.sum := by
  induction sizes generalizing l with
  | nil => simp [deal]
  | cons size sizes ih =>
      rw [deal, List.flatten_cons, ih, List.sum_cons, List.take_add]

/-- Buffers of enough size take the whole list. -/
theorem flatten_deal_of_le (enough : l.length ≤ sizes.sum) : (deal sizes l).flatten = l := by
  rw [flatten_deal, List.take_of_length_le enough]

end Dealing
