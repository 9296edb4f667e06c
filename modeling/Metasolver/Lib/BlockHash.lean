import Mathlib.Algebra.Ring.Nat

/-!
# Hashing block by block

An iterated hash function works its input off in blocks of `n` letters: `compress`
takes one block into the state, and letters that do not fill a block wait for more.
`feed` says what the function knows after an input: the state after all full blocks,
and the rest.

Feeding is a law of composition (`feed_append`): what has been fed is all there is to
know of an input, wherever the input is cut.  So a program that keeps the state and
the rest can be given its input in pieces.
-/

namespace BlockHash

variable {α σ : Type} {n : Nat}

/-- The first `n` letters. -/
def firstBlock (l : List α) (h : n ≤ l.length) : Vector α n :=
  ⟨(l.take n).toArray, by simp [h]⟩

@[simp] theorem toList_firstBlock (l : List α) (h : n ≤ l.length) :
    (firstBlock l h).toList = l.take n := rfl

theorem firstBlock_append (b : Vector α n) (l : List α) (h : n ≤ (b.toList ++ l).length) :
    firstBlock (b.toList ++ l) h = b := by
  apply Vector.toList_inj.mp
  have full : b.toList.length = n := by simp
  rw [toList_firstBlock, List.take_left' full]

/-- The state after the full blocks of an input, and what is left of it. -/
def feed [NeZero n] (compress : σ → Vector α n → σ) (s : σ) (l : List α) : σ × List α :=
  if h : n ≤ l.length then feed compress (compress s (firstBlock l h)) (l.drop n) else (s, l)
termination_by l.length
decreasing_by
  have := Nat.pos_of_neZero n
  rw [List.length_drop]
  omega

variable [NeZero n] {compress : σ → Vector α n → σ} {s : σ} {l : List α}

theorem feed_of_lt (h : l.length < n) : feed compress s l = (s, l) := by
  rw [feed, dif_neg (Nat.not_le.mpr h)]

theorem feed_of_le (h : n ≤ l.length) :
    feed compress s l = feed compress (compress s (firstBlock l h)) (l.drop n) := by
  rw [feed, dif_pos h]

@[simp] theorem feed_nil : feed compress s [] = (s, []) :=
  feed_of_lt (Nat.pos_of_neZero n)

/-- A block goes into the state at once. -/
theorem feed_block (b : Vector α n) (l : List α) :
    feed compress s (b.toList ++ l) = feed compress (compress s b) l := by
  have h : n ≤ (b.toList ++ l).length := by simp
  have full : b.toList.length = n := by simp
  rw [feed_of_le h, firstBlock_append, List.drop_left' full]

theorem feed_toList (b : Vector α n) : feed compress s b.toList = (compress s b, []) := by
  have only : feed compress s (b.toList ++ []) = feed compress (compress s b) [] :=
    feed_block b []
  rwa [List.append_nil, feed_nil] at only

/-- What is left does not fill a block. -/
theorem length_feed (s : σ) (l : List α) : (feed compress s l).2.length = l.length % n := by
  fun_induction feed compress s l with
  | case1 s l h ih => rw [ih, List.length_drop, ← Nat.mod_eq_sub_mod h]
  | case2 s l h => exact (Nat.mod_eq_of_lt (Nat.not_le.mp h)).symm

theorem length_feed_lt (s : σ) (l : List α) : (feed compress s l).2.length < n := by
  rw [length_feed]
  exact Nat.mod_lt _ (Nat.pos_of_neZero n)

/-- The law of composition: an input goes on where the part before it has ended. -/
theorem feed_append (s : σ) (l m : List α) :
    feed compress s (l ++ m) =
      feed compress (feed compress s l).1 ((feed compress s l).2 ++ m) := by
  fun_induction feed compress s l with
  | case1 s l h ih =>
      have longer : n ≤ (l ++ m).length := by
        rw [List.length_append]
        omega
      have same : firstBlock (l ++ m) longer = firstBlock l h := by
        apply Vector.toList_inj.mp
        rw [toList_firstBlock, toList_firstBlock, List.take_append_of_le_length h]
      rw [feed_of_le longer, same, List.drop_append_of_le_length h, ih]
  | case2 s l h => rfl

end BlockHash
