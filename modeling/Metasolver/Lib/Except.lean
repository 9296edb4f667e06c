import Mathlib.Data.List.Forall2

/-!
# Computations that may throw

`bind` and `pure` of `Except` inverted: what a computation that returned has gone
through.
-/

namespace Except

variable {ε α β : Type} {x : Except ε α} {f : α → Except ε β} {a : α} {b : β}

theorem bind_eq_ok_iff : x >>= f = .ok b ↔ ∃ a, x = .ok a ∧ f a = .ok b := by
  cases x with
  | error e => simp [bind, Except.bind]
  | ok a => simp [bind, Except.bind]

theorem pure_eq_ok_iff {a' : α} : (pure a : Except ε α) = .ok a' ↔ a = a' := by
  simp [pure, Except.pure]

/-- A loop whose every round returns. -/
theorem mapM_of_forall₂ {l : List α} {r : List β}
    (rounds : List.Forall₂ (fun a b => f a = .ok b) l r) : l.mapM f = .ok r := by
  induction rounds with
  | nil => rfl
  | cons round _ ih =>
      rw [List.mapM_cons, round, ih]
      rfl

end Except
