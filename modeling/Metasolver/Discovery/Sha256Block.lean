import Metasolver.Discovery.Sha256

/-!
# `processBlock` is the compression function

The code unrolls the rounds.  It does not move the working variables but turns the names,
line by line, and it extends the words by eight whenever eight rounds have used up the
last ones.  `processBlock_eq` says that this computes the compression function of the
standard: `eightLines` is eight rounds, and the words are the message schedule.
-/

namespace Metasolver

open Sha2

namespace Sha256

/-! ## Functions and constants -/

theorem rotate_eq (a : Word) {c : Nat} (h : c < 32) : rotate a c = a.rotateRight c := by
  rw [BitVec.rotateRight_eq_rotateRightAux_of_lt h]
  rfl

theorem f1_eq (e f g : Word) : f1 e f g = bigSigma1 e + ch e f g := by
  simp only [f1, rotate_eq _ (by decide : 6 < 32), rotate_eq _ (by decide : 11 < 32),
    rotate_eq _ (by decide : 25 < 32)]
  rfl

/-- The code has another formula for the majority of three bits. -/
theorem maj_eq (x y z : Word) : ((x ||| y) &&& z) ||| (x &&& y) = maj x y z := by
  ext i h
  simp only [maj, BitVec.getElem_or, BitVec.getElem_and, BitVec.getElem_xor]
  cases x[i] <;> cases y[i] <;> cases z[i] <;> rfl

theorem f2_eq (a b c : Word) : f2 a b c = bigSigma0 a + maj a b c := by
  simp only [f2, maj_eq, rotate_eq _ (by decide : 2 < 32), rotate_eq _ (by decide : 13 < 32),
    rotate_eq _ (by decide : 22 < 32)]
  rfl

/-- The constants in the code are the ones the standard takes from the first 64 primes. -/
theorem constants_eq {t : Nat} (h : t < 64) : constants.getD t 0 = roundConstant t := by
  have each : ∀ t : Fin 64, constants.getD t 0 = roundConstant t := by decide +kernel
  exact each ⟨t, h⟩

theorem seed_eq : seed = initial := by decide +kernel

/-! ## The words -/

theorem swap_eq (b₀ b₁ b₂ b₃ : BitVec 8) :
    swap (b₃ ++ b₂ ++ b₁ ++ b₀) = b₀ ++ b₁ ++ b₂ ++ b₃ := by
  have low : ∀ i, i < 32 → (0x0000FF00 : Word).getLsbD i = decide (8 ≤ i ∧ i < 16) := by decide
  have high : ∀ i, i < 32 → (0x00FF0000 : Word).getLsbD i = decide (16 ≤ i ∧ i < 24) := by decide
  apply BitVec.eq_of_getLsbD_eq
  intro i h
  have low := low i h
  have high := high i h
  simp only [swap, BitVec.getLsbD_or, BitVec.getLsbD_and, BitVec.getLsbD_ushiftRight,
    BitVec.getLsbD_shiftLeft, BitVec.getLsbD_append]
  grind

theorem inputWords_eq (m : Block) : inputWords m = (List.range 16).map (schedule m) := by
  apply List.ext_getElem
  · simp [inputWords]
  · intro i h h'
    have small : i < 16 := by simpa using h'
    simp only [inputWords, List.getElem_ofFn, List.getElem_map, List.getElem_range]
    rw [schedule, dif_pos small, input, swap_eq]
    rfl

/-- Every word after the first 16 is the next one of the message schedule. -/
theorem extendWord_schedule (m : Block) {t : Nat} (h : 16 ≤ t) :
    extendWord ((List.range t).map (schedule m)) = (List.range (t + 1)).map (schedule m) := by
  have back : ∀ n, 0 < n → n ≤ 16 →
      ((List.range t).map (schedule m)).getD (t - n) 0 = schedule m (t - n) := by
    intro n _ _
    have before : t - n < t := by omega
    simp [List.getD_eq_getElem?_getD, before]
  have next : schedule m t = schedule m (t - 16) +
      (rotate (schedule m (t - 15)) 7 ^^^ rotate (schedule m (t - 15)) 18 ^^^
        schedule m (t - 15) >>> 3) + schedule m (t - 7) +
      (rotate (schedule m (t - 2)) 17 ^^^ rotate (schedule m (t - 2)) 19 ^^^
        schedule m (t - 2) >>> 10) := by
    rw [schedule, dif_neg (Nat.not_lt.mpr h)]
    simp only [rotate_eq _ (by decide : 7 < 32), rotate_eq _ (by decide : 18 < 32),
      rotate_eq _ (by decide : 17 < 32), rotate_eq _ (by decide : 19 < 32)]
    simp only [smallSigma0, smallSigma1]
    ac_rfl
  rw [extendWord, List.range_succ, List.map_append, List.map_singleton, next]
  simp only [List.length_map, List.length_range, back 16 (by decide) (by decide),
    back 15 (by decide) (by decide), back 7 (by decide) (by decide),
    back 2 (by decide) (by decide)]

theorem extend_schedule (m : Block) {t : Nat} (h : 16 ≤ t) :
    extend ((List.range t).map (schedule m)) = (List.range (t + 8)).map (schedule m) := by
  have several : ∀ n, extendWord^[n] ((List.range t).map (schedule m)) =
      (List.range (t + n)).map (schedule m) := by
    intro n
    induction n with
    | zero => rfl
    | succ n ih => rw [Function.iterate_succ_apply', ih, extendWord_schedule m (by omega)]; rfl
  exact several 8

/-! ## The rounds -/

/-- A line is a round, with the variables left where they are. -/
theorem line_eq (a b c d e f g h k w : Word) :
    Sha2.round ⟨a, b, c, d, e, f, g, h⟩ k w =
      ⟨(line a b c d e f g h k w).2, a, b, c, (line a b c d e f g h k w).1, e, f, g⟩ := by
  simp only [Sha2.round, line, f1_eq, f2_eq, BitVec.add_assoc]

/-- After eight lines every variable has its first name again. -/
theorem eightLines_eq (words : List Word) (t : Nat) (s : Words) :
    eightLines words t s = (List.range 8).foldl
      (fun s i => round s (constants.getD (t + i) 0) (words.getD (t + i) 0)) s := by
  obtain ⟨a, b, c, d, e, f, g, h⟩ := s
  simp only [eightLines, List.range_succ_eq_map, List.range_zero, List.map_nil, List.map_cons,
    List.foldl_cons, List.foldl_nil, line_eq]

theorem eightLines_rounds (m : Block) (s : Words) (t n : Nat) (known : t + 8 ≤ n)
    (h : t + 8 ≤ 64) :
    eightLines ((List.range n).map (schedule m)) t (rounds m s t) = rounds m s (t + 8) := by
  have word : ∀ i < 8, ((List.range n).map (schedule m)).getD (t + i) 0 = schedule m (t + i) := by
    intro i small
    have inside : t + i < n := by omega
    simp [List.getD_eq_getElem?_getD, inside]
  have upTo : ∀ j ≤ 8, (List.range j).foldl (fun s i => round s (constants.getD (t + i) 0)
      (((List.range n).map (schedule m)).getD (t + i) 0)) (rounds m s t) = rounds m s (t + j) := by
    intro j
    induction j with
    | zero => exact fun _ => rfl
    | succ j ih =>
        intro small
        rw [List.range_succ, List.foldl_append, ih (by omega), List.foldl_cons, List.foldl_nil,
          constants_eq (by omega), word j (by omega), ← Nat.add_assoc, rounds_succ]
  rw [eightLines_eq]
  exact upTo 8 (Nat.le_refl 8)

theorem processBlock_eq (s : Words) (m : Block) : processBlock s m = compress s m := by
  have first : eightLines ((List.range 16).map (schedule m)) 0 s = rounds m s 8 :=
    eightLines_rounds m s 0 16 (by decide) (by decide)
  have last : ∀ t n, t + 8 ≤ n → t + 8 ≤ 64 →
      eightLines ((List.range n).map (schedule m)) t (rounds m s t) = rounds m s (t + 8) :=
    eightLines_rounds m s
  rw [processBlock]
  simp only [inputWords_eq, extend_schedule m (by decide : 16 ≤ 16),
    extend_schedule m (by decide : 16 ≤ 24), extend_schedule m (by decide : 16 ≤ 32),
    extend_schedule m (by decide : 16 ≤ 40), extend_schedule m (by decide : 16 ≤ 48),
    extend_schedule m (by decide : 16 ≤ 56), first, last 8 16 (by decide) (by decide),
    last 16 24 (by decide) (by decide), last 24 32 (by decide) (by decide),
    last 32 40 (by decide) (by decide), last 40 48 (by decide) (by decide),
    last 48 56 (by decide) (by decide), last 56 64 (by decide) (by decide)]
  rfl

end Sha256

end Metasolver
