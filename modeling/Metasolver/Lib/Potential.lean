import Mathlib.Algebra.Ring.Nat
import Mathlib.Algebra.BigOperators.Group.Finset.Piecewise
import Metasolver.Lib.Exec

/-!
# Steps paid for by a potential

If every step lowers a potential by what it gains, up to the price that its event pays, then
what a run gains is paid for by its events and by the potential it started with
(`exec_paid`).  A potential that is a sum over named parts changes with the part that a step
changes (`sum_update`).
-/

namespace Potential

open scoped BigOperators

section Sum

variable {ι α : Type} [DecidableEq ι] {names : Finset ι} {f : ι → α} {i : ι} {x : α}
  (cost : α → Nat)

/-- One part is replaced. -/
theorem sum_update (member : i ∈ names) :
    ∑ j ∈ names, cost (Function.update f i x j) + cost (f i) =
      ∑ j ∈ names, cost (f j) + cost x := by
  have replaced : ∑ j ∈ names, cost (Function.update f i x j) =
      ∑ j ∈ names, Function.update (fun j => cost (f j)) i (cost x) j :=
    Finset.sum_congr rfl fun j _ => Function.apply_update (fun _ => cost) f i x j
  have others := Finset.add_sum_erase names (fun j => cost (f j)) member
  rw [replaced, Finset.sum_update_of_mem member, Finset.sdiff_singleton_eq_erase, ← others]
  omega

/-- A part without a name does not count. -/
theorem sum_update_of_notMem (absent : i ∉ names) :
    ∑ j ∈ names, cost (Function.update f i x j) = ∑ j ∈ names, cost (f j) := by
  apply Finset.sum_congr rfl
  intro j member
  rw [Function.update_of_ne]
  rintro rfl
  exact absent member

/-- A part that costs more by at most `k` raises the sum by at most `k`. -/
theorem sum_update_le {k : Nat} (more : cost x ≤ cost (f i) + k) :
    ∑ j ∈ names, cost (Function.update f i x j) ≤ ∑ j ∈ names, cost (f j) + k := by
  by_cases member : i ∈ names
  · have changed := sum_update (f := f) (x := x) cost member
    omega
  · rw [sum_update_of_notMem cost member]
    exact Nat.le_add_right _ _

end Sum

open Exec

variable {σ ε : Type} {step : σ → ε → Option σ} {potential : σ → Nat} {gain price : ε → Nat}
  {s t : σ} {es : List ε}

/-- The gains of a run are paid for. -/
theorem exec_paid
    (paid : ∀ s e t, e ∈ es → step s e = some t → potential t + gain e ≤ potential s + price e)
    (run : exec step s es = some t) :
    potential t + (es.map gain).sum ≤ potential s + (es.map price).sum := by
  induction es generalizing s with
  | nil =>
      obtain rfl := Option.some.inj run
      exact Nat.le_refl _
  | cons e es ih =>
      obtain ⟨u, first, rest⟩ := exec_cons_some.mp run
      have now := paid s e u List.mem_cons_self first
      have later := ih (fun s e' t member => paid s e' t (List.mem_cons_of_mem e member)) rest
      rw [List.map_cons, List.map_cons, List.sum_cons, List.sum_cons]
      omega

end Potential
